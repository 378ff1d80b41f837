import LiteralAudit.CommandLine.Flag

/-!
# Programs with commands

A program has commands, each with flags of its own besides those of the program, and a command may
have commands itself. `Program.read` finds the command that a command line names and reads its flags
and operands. A name that is no command of the program is answered with the commands that come near
it.
-/

namespace LiteralAudit.CommandLine

/-- How many operands a command takes. -/
inductive Arity where
  | any
  | none
  | atMost (n : Nat)
  | exactly (n : Nat)
  deriving Repr, DecidableEq, BEq, Inhabited

structure Command where
  name : Text
  /-- The operands as the usage line shows them. -/
  operands : Text := []
  summary : Text
  details : Text
  arity : Arity := .any
  flags : List Flag := []
  /-- Whether the command does anything but show what it is for. -/
  runs : Bool := true
  /-- Whether the usage line tells that there are flags. -/
  tellsFlags : Bool := true
  commands : List Command := []

structure Program where
  name : Text
  details : Text
  commands : List Command
  /-- The flags that every command takes. -/
  flags : List Flag

/-! ## Names that come near -/

/-- One row of the table of distances: the distances of the beginnings of `t` to a text that ends in
`b`, given those to the text without it. -/
def distanceRow (b : UInt8) (t : Text) (above : List Nat) : List Nat :=
  match above with
  | [] => []
  | corner :: rest =>
    let step : (Nat × Nat × List Nat) → (UInt8 × Nat) → Nat × Nat × List Nat :=
      fun (left, diagonal, row) (c, up) =>
        let d := if b == c then diagonal else 1 + min (min up left) diagonal
        (d, up, d :: row)
    let (_, _, row) := (t.zip rest).foldl step (corner + 1, corner, [corner + 1])
    row.reverse

/-- How many bytes must be inserted, erased or replaced to get from one text to another. -/
def distance (s t : Text) : Nat :=
  ((s.foldl (fun above b => distanceRow b t above) (List.range (t.length + 1))).getLast?).getD 0

/-- The commands whose names come near a text: at most two changes away, or longer than it. -/
def Program.near (p : Program) (t : Text) : List Text :=
  (p.commands.map (·.name)).filter fun name =>
    name != "help" && (distance t.toLower name.toLower ≤ 2 || name.toLower.startsWith t.toLower)

/-! ## Faults -/

/-- Why a command line cannot be carried out. -/
inductive Fault where
  | unknownCommand (name program : Text) (near : List Text)
  | flag (cause : FlagFault)
  | tooMany (limit received : Nat)
  | wrongNumber (wanted received : Nat)
  | tooFew (least received : Nat)

def Fault.message : Fault → Text
  | unknownCommand name program near =>
    "unknown command " ++ name.quoted ++ " for " ++ program.quoted ++
      (if near.isEmpty then [] else
        "\n\nDid you mean this?\n" ++ near.flatMap fun n => ("\t" ++ n ++ "\n" : Text) : Text)
  | flag cause => cause.message
  | tooMany limit received =>
    "accepts at most " ++ Text.ofNat limit ++ " arg(s), received " ++ Text.ofNat received
  | wrongNumber wanted received =>
    "accepts " ++ Text.ofNat wanted ++ " arg(s), received " ++ Text.ofNat received
  | tooFew least received =>
    "requires at least " ++ Text.ofNat least ++ " arg(s), only received " ++ Text.ofNat received

/-- What is wrong with the number of operands; `path` is the full name of the command. -/
def Arity.fault? (a : Arity) (path : Text) (operands : List Text) : Option Fault :=
  match a, operands with
  | .any, _ => Option.none
  | .none, [] => Option.none
  | .none, first :: _ => some (.unknownCommand first path [])
  | .atMost n, os => if os.length ≤ n then Option.none else some (.tooMany n os.length)
  | .exactly n, os => if os.length == n then Option.none else some (.wrongNumber n os.length)

/-! ## Finding the command -/

namespace Program

/-- Whether an argument is a flag that the next argument belongs to, as far as the flags of the program
tell: a flag that they do not know is taken for one. -/
def takesNext (p : Program) (a : Text) : Bool :=
  let o : Options := { flags := p.flags }
  let isSwitch (f? : Option Flag) : Bool := f?.any (·.kind == .switch)
  if a.contains '=' then false
  else if a.startsWith "--" then !isSwitch (o.flag? (a.drop 2))
  else match a with
    | [d, c] => d == '-' && !isSwitch (o.letterFlag? c)
    | _ => false

/-- The arguments that are neither flags nor values of flags. A flag that would take the last argument
ends the search. -/
def words (p : Program) : List Text → List Text
  | [] => []
  | a :: rest =>
    if a == "--" then []
    else if p.takesNext a then
      match rest with
      | _ :: b :: more => words p (b :: more)
      | _ => []
    else if a.isEmpty || a.head? == some ('-' : UInt8) then words p rest
    else a :: words p rest

/-- The arguments without the first one that names the command. -/
def without (p : Program) (name : Text) : List Text → List Text
  | [] => []
  | a :: rest =>
    if a == "--" then a :: rest
    else if p.takesNext a then
      match rest with
      | [] => [a]
      | b :: more => a :: b :: without p name more
    else if a.head? != some ('-' : UInt8) && a == name then rest
    else a :: without p name rest

/-- A command and the words that name it, from the name of the program on. -/
structure Named where
  path : Text
  command : Command

/-- Auxiliary to `find`: the command that the arguments name inside another one, at most `fuel` deep. -/
def descend (p : Program) : Nat → Named → List Text → Named × List Text
  | 0, n, args => (n, args)
  | fuel + 1, n, args =>
    match p.words args with
    | [] => (n, args)
    | word :: _ =>
      match n.command.commands.find? (·.name == word) with
      | some c => p.descend fuel ⟨n.path ++ " " ++ word, c⟩ (p.without word args)
      | none => (n, args)

/-- The command that a command line names, or the program itself when it names none, and the arguments
that are left. -/
def find (p : Program) (args : List Text) : Except Fault (Option Named × List Text) :=
  match p.words args with
  | [] => .ok (none, args)
  | word :: _ =>
    match p.commands.find? (·.name == word) with
    | some c =>
      let (n, rest) := p.descend args.length ⟨p.name ++ " " ++ word, c⟩ (p.without word args)
      .ok (some n, rest)
    | none => .error (.unknownCommand word p.name (p.near word))

/-- The flag that asks for help. -/
def helpFlag (name : Text) : Flag :=
  { name := "help", letter? := some 'h', kind := .switch, builtin := .switch false,
    usage := "help for " ++ name }

/-- What a command line asks for. -/
inductive Request where
  /-- To show what a command, or the program, is for. -/
  | help (named? : Option Named)
  | run (named : Named) (options : Options) (operands : List Text)
  /-- To tell how a command line can go on, with or without what the words are for. -/
  | propose (args : List Text) (described : Bool)

/-- The words by which a shell asks how a command line can go on, and whether it wants to be told what
the proposed words are for. -/
def proposalWords : List (Text × Bool) := [("__complete", true), ("__completeNoDesc", false)]

/-- The command line that a shell asks about, if the arguments ask about one. -/
def asked? (p : Program) (args : List Text) : Option (List Text × Bool) := do
  let word ← (p.words args).head?
  let described ← proposalWords.lookup word
  return (p.without word args, described)

/-- Reads a command line that is not a question. Help goes before operands that are wrong. -/
def readCommand (p : Program) (args : List Text) : Except Fault Request := do
  let (named?, rest) ← p.find args
  let own := match named? with
    | some n => helpFlag n.command.name :: n.command.flags
    | none => [helpFlag p.name]
  let (o, operands) ← match Options.read (own ++ p.flags) rest with
    | .ok r => pure r
    | .error e => throw (.flag e)
  match named? with
  | none => return .help none
  | some n =>
    if o.isOn "help" || !n.command.runs then return .help (some n)
    match n.command.arity.fault? n.path operands with
    | some f => throw f
    | none => return .run n o operands

/-- Reads a command line. -/
def read (p : Program) (args : List Text) : Except Fault Request :=
  match p.asked? args with
  | some ([], _) => .error (.tooFew 1 0)
  | some (asked, described) => .ok (.propose asked described)
  | none => p.readCommand args

end Program

end LiteralAudit.CommandLine

/-!
## Help texts

What a program or one of its commands is for: its details, how it is called, the commands there are,
and its flags.
-/

namespace LiteralAudit.CommandLine

/-- A text with blanks behind it up to a width. -/
def padTo (width : Nat) (t : Text) : Text :=
  t ++ List.replicate (width - t.length) (' ' : UInt8)

/-- What stands for the value of a flag. -/
def Kind.placeholder : Kind → Text
  | switch => []
  | text => "string"
  | separated => "strings"
  | repeated => "stringArray"
  | int => "int"
  | real => "float"
  | duration => "duration"

/-- A value that is worth telling: nothing for one that is empty, zero or off. -/
def Value.shown? : Value → Option Text
  | switch b => if b then some "true" else none
  | text t => if t.isEmpty then none else some t.quoted
  | list _ => none
  | int i => if i == 0 then none else some (Text.ofInt i)
  | real x => if x == 0 then none else some (Number.general x)
  | duration d => if d.nanos == 0 then none else some d.text

/-- A flag with its letter and what stands for its value. -/
def Flag.heading (f : Flag) : Text :=
  (match f.letter? with
    | some c => "  -" ++ [c] ++ ", --" ++ f.name
    | none => "      --" ++ f.name : Text) ++
  (if f.kind.placeholder.isEmpty then [] else " " ++ f.kind.placeholder : Text)

def Flag.explanation (f : Flag) : Text :=
  f.usage ++ (match f.builtin.shown? with
    | some v => " (default " ++ v ++ ")"
    | none => [] : Text)

/-- The flags by name, their explanations below each other. -/
def flagLines (fs : List Flag) : List Text :=
  let fs := fs.mergeSort fun a b => Text.le a.name b.name
  let width := (fs.map (·.heading.length)).foldl max 0
  fs.map fun f => padTo width f.heading ++ "   " ++ f.explanation

def titled (title : Text) (lines : List Text) : List Text := [[], title] ++ lines

namespace Program

/-- Commands by name, their summaries below each other. -/
def commandLines (commands : List Command) : List Text :=
  let cs := commands.mergeSort fun a b => Text.le a.name b.name
  let width := (cs.map (·.name.length)).foldl max 11
  cs.map fun c => "  " ++ padTo width c.name ++ " " ++ c.summary

/-- Where there is more help on the commands of what `path` names. -/
def hint (path : Text) : List Text :=
  [[], "Use \"" ++ path ++ " [command] --help\" for more information about a command."]

/-- How the program is called. -/
def usage (p : Program) : List Text :=
  let call : List Text := ["Usage:", "  " ++ p.name ++ " [command]"]
  call ++ titled "Available Commands:" (commandLines p.commands) ++
    titled "Flags:" (flagLines (helpFlag p.name :: p.flags)) ++ hint p.name

/-- How a command is called. -/
def commandUsage (p : Program) (n : Named) : List Text :=
  let c := n.command
  let operands : Text := if c.operands.isEmpty then [] else " " ++ c.operands
  let flags : Text := if c.tellsFlags then " [flags]" else []
  let call : List Text :=
    ["Usage:", "  " ++ n.path ++ (if c.runs then operands ++ flags else " [command]" : Text)]
  let offers := if c.commands.isEmpty then []
    else titled "Available Commands:" (commandLines c.commands)
  call ++ offers ++ titled "Flags:" (flagLines (helpFlag c.name :: c.flags)) ++
    titled "Global Flags:" (flagLines p.flags) ++ (if c.commands.isEmpty then [] else hint n.path)

/-- The help text of a command, or of the program. -/
def help (p : Program) (named? : Option Named) : Text :=
  let lines := match named? with
    | some n => [n.command.details, []] ++ p.commandUsage n
    | none => [p.details, []] ++ p.usage
  Text.join "\n" lines ++ "\n"

end Program

end LiteralAudit.CommandLine

/-!
## How a command line can go on

A shell asks a program how a command line can go on. The last argument is what was typed of the next
one; the answer are the commands or flags that start with it, each with a line on what it is for, and a
number that tells the shell what else it may propose.
-/

namespace LiteralAudit.CommandLine

/-- What the shell may propose besides the answer. -/
inductive Directive where
  /-- The names of files. -/
  | files
  | nothing
  deriving Repr, DecidableEq

/-- The number that stands for a directive. -/
def Directive.code : Directive → Nat
  | files => 0
  | nothing => 4

/-- An answer: words, each with what it is for, and what else may be proposed. -/
structure Proposal where
  words : List (Text × Text) := []
  directive : Directive := .files
  deriving Repr, DecidableEq

/-- The answer as the shell reads it, with or without what the words are for. -/
def Proposal.text (a : Proposal) (described : Bool) : Text :=
  let line (w : Text × Text) : Text :=
    let whole : Text := if described then w.1 ++ "\t" ++ w.2 else w.1
    Text.trimSpace (whole.takeWhile fun (b : UInt8) => b != '\n') ++ "\n"
  a.words.flatMap line ++ ":" ++ Text.ofNat a.directive.code ++ "\n"

/-- Where a command line is to go on: at the value of a flag, or at a word that was begun. -/
structure Opening where
  flag? : Option Flag := none
  args : List Text
  typed : Text

/-- Whether an argument is a flag. -/
def isFlagArgument (a : Text) : Bool :=
  match a with
  | 0x2D :: b :: rest => b != '-' || !rest.isEmpty
  | _ => false

/-- Where a command line with some flags goes on. A flag that is not known is the fault of `none`. -/
def Opening.of? (o : Options) (args : List Text) (typed : Text) : Option Opening :=
  let known? (name : Text) : Option Flag := match name with
    | [c] => o.letterFlag? c
    | _ => o.flag? name
  if typed.head? == some ('-' : UInt8) then
    match Text.cutByte? typed '=' with
    | none => some { args, typed }
    | some (front, value) =>
      let name := (Text.dropFront? "--" front).getD (front.drop (front.length - 1))
      if name.isEmpty then some { args, typed := value }
      else (known? name).map fun f => { flag? := some f, args, typed := value }
  else match args.getLast? with
    | none => some { args, typed }
    | some last =>
      if !isFlagArgument last || List.contains last '=' then some { args, typed }
      else
        let name := (Text.dropFront? "--" last).getD (last.drop (last.length - 1))
        (known? name).map fun f =>
          if f.kind == .switch then { args, typed }
          else { flag? := some f, args := args.dropLast, typed }

namespace Program

/-- The commands among some that start with a text, by name. -/
def proposedCommands (commands : List Command) (typed : Text) : List (Text × Text) :=
  let cs := commands.mergeSort fun a b => Text.le a.name b.name
  (cs.filter (·.name.startsWith typed)).map fun c => (c.name, c.summary)

/-- The names and letters of flags that start with a text. A flag that was given is not proposed again,
unless it adds to what it was set to. -/
def proposedFlags (o : Options) (flags : List Flag) (typed : Text) : List (Text × Text) :=
  let flags := flags.mergeSort fun a b => Text.le a.name b.name
  let open_ := flags.filter fun f =>
    !o.isGiven f.name || f.kind == .separated || f.kind == .repeated
  open_.flatMap fun f =>
    let letter : List Text := match f.letter? with
      | some c => ["-" ++ [c]]
      | none => []
    let words : List Text := ("--" ++ f.name) :: letter
    words.filterMap fun word =>
      if Text.startsWith word typed then some (word, f.usage) else none

/-- What a command proposes for its operands besides its commands: help proposes the commands that it
knows of, and the commands for completion propose nothing. -/
def proposedOperands? (p : Program) (n : Named) (operands : List Text) (typed : Text) :
    Option (List (Text × Text)) :=
  if n.command.name == "help" then
    match p.find operands with
    | .ok (none, _) => some (proposedCommands p.commands typed)
    | .ok (some n, _) => some (proposedCommands n.command.commands typed)
    | .error _ => some []
  else if n.path.startsWith (p.name ++ " completion") then some []
  else none

/-- How a command line can go on, behind the command that it names and its arguments. -/
def proposeAt (p : Program) (named? : Option Named) (args : List Text) (typed : Text) : Proposal :=
  let own := match named? with
    | some n => helpFlag n.command.name :: n.command.flags
    | none => [helpFlag p.name]
  let flags := own ++ p.flags
  let opening? := Opening.of? { flags } args typed
  let opening := opening?.getD { args, typed }
  match Options.read flags opening.args with
  | .error _ => {}
  | .ok (o, operands) =>
    let closed := match Options.read flags (opening.args ++ [Text.ofString "--"]) with
      | .ok (_, more) => operands.length < more.length
      | .error _ => false
    let typed := opening.typed
    if opening?.isNone && !closed then {}
    else if o.isGiven "help" then { directive := .nothing }
    else if opening.flag?.isNone && typed.head? == some ('-' : UInt8) && !List.contains typed '=' &&
        !closed then
      let inherited := if named?.isSome then p.flags else []
      let own := if named?.isSome then own else flags
      { words := proposedFlags o inherited typed ++ proposedFlags o own typed, directive := .nothing }
    else
      let commands := match named? with
        | some n => n.command.commands
        | none => p.commands
      let begins := opening.flag?.isNone && operands.isEmpty && !own.any fun f => o.isGiven f.name
      let words := if begins then proposedCommands commands typed else []
      let directive : Directive := if begins && !commands.isEmpty then .nothing else .files
      match named? with
      | some n =>
        match if opening.flag?.isSome && !closed then none
          else p.proposedOperands? n operands typed with
        | some more => { words := words ++ more, directive := .nothing }
        | none => { words, directive }
      | none => { words, directive }

/-- How a command line can go on. Its last argument is what was typed of the next one. -/
def propose (p : Program) (args : List Text) : Proposal :=
  match p.find args.dropLast with
  | .error _ => {}
  | .ok (named?, rest) => p.proposeAt named? rest (args.getLast?.getD [])

end Program

end LiteralAudit.CommandLine
