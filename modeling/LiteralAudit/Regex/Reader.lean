import LiteralAudit.Regex.Automaton
import LiteralAudit.Text.Utf8
import LiteralAudit.Unicode.Case
import LiteralAudit.Unicode.Script

/-!
# Reading regular expressions

`Regex.read` turns the written form of an expression into a `Regex`. The reader goes through the
text once, keeping the groups that are still open as frames (`Frame`), each with its finished
alternatives and the items of the one being read. Every way in which a text can fail to be an
expression is a `Fault`, and `RegexError` says which fault it was and which part of the text shows
it.
-/

namespace LiteralAudit.Regex

/-- The ways in which a text can fail to be a regular expression. -/
inductive Fault where
  | invalidCharRange
  | invalidEscape
  | invalidNamedCapture
  | invalidPerlOp
  | invalidRepeatOp
  | invalidRepeatSize
  | missingBracket
  | missingParen
  | missingRepeatArgument
  | trailingBackslash
  | unexpectedParen
  | nestingDepth
  | tooLarge
  | invalidUtf8
  deriving Repr, DecidableEq, BEq

def Fault.message : Fault → String
  | invalidCharRange => "invalid character class range"
  | invalidEscape => "invalid escape sequence"
  | invalidNamedCapture => "invalid named capture"
  | invalidPerlOp => "invalid or unsupported Perl syntax"
  | invalidRepeatOp => "invalid nested repetition operator"
  | invalidRepeatSize => "invalid repeat count"
  | missingBracket => "missing closing ]"
  | missingParen => "missing closing )"
  | missingRepeatArgument => "missing argument to repetition operator"
  | trailingBackslash => "trailing backslash at end of expression"
  | unexpectedParen => "unexpected )"
  | nestingDepth => "expression nests too deeply"
  | tooLarge => "expression too large"
  | invalidUtf8 => "invalid UTF-8"

/-- Why a text is no regular expression, and the part of it that shows the fault. -/
structure Error where
  fault : Fault
  part : Text
  deriving Repr, DecidableEq

def Error.message (e : Error) : Text :=
  "error parsing regexp: " ++ Text.ofString e.fault.message ++ ": `" ++ e.part ++ "`"

/-- A fault met while reading characters, and the part that shows it. -/
structure Flaw where
  fault : Fault
  part : List Char
  deriving Repr, DecidableEq

/-- What the letters after `(?` switch on and off. -/
structure Options where
  /-- Letters match in either case. -/
  fold : Bool := false
  /-- `^` and `$` also match at line breaks. -/
  multiLine : Bool := false
  /-- `.` also matches a line break. -/
  dotAll : Bool := false
  /-- Repetitions are lazy unless marked greedy. -/
  lazy : Bool := false
  deriving Repr, DecidableEq

/-- An item that has been read, with the depth to which it nests and the number of steps that it takes
when its repetitions are written out. -/
structure Item where
  regex : Regex
  depth : Nat := 1
  size : Nat := 1

/-- The steps that a repetition of an item takes. -/
def repeatSize (least : Nat) (most : Option Nat) (size : Nat) : Nat :=
  match least, most with
  | 0, none => size + 2
  | _, none => least * size + 1
  | _, some most => max 1 (most * size + (most - least))

namespace Item

/-- Items, the last one first, as one item; `joint` is what each of them but one adds to their size. -/
def combine (whole : List Regex → Regex) (joint : Nat) (items : List Item) : Item :=
  match items with
  | [] => { regex := .empty }
  | [item] => item
  | items =>
    { regex := whole (items.reverse.map (·.regex))
      depth := 1 + (items.map (·.depth)).foldl max 0
      size := (items.map (·.size)).foldl (· + ·) 0 + joint * (items.length - 1) }

/-- The items of a sequence, the last one first, as one item. -/
def sequence (items : List Item) : Item := combine seqAll 0 items

/-- The items of a choice, the last one first, as one item. -/
def choice (items : List Item) : Item := combine altAll 1 items

/-- An item repeated. -/
def repeated (least : Nat) (most : Option Nat) (greedy : Bool) (item : Item) : Item :=
  { regex := .rep least most greedy item.regex
    depth := item.depth + 1
    size := repeatSize least most item.size }

/-- An item remembered as a group. -/
def remembered (n : Nat) (item : Item) : Item :=
  { regex := .group n item.regex, depth := item.depth + 1, size := item.size + 2 }

/-- The greatest depth to which an expression may nest. -/
def maxDepth : Nat := 1000

/-- The greatest size that an expression may have. -/
def maxSize : Nat := 3355443

/-- Why an item may not be part of an expression. -/
def fault? (item : Item) : Option Fault :=
  if item.size > maxSize then some .tooLarge
  else if item.depth > maxDepth then some .nestingDepth
  else none

end Item

/-- An open group: how it is remembered, the options to return to when it closes, the finished
alternatives and the items of the alternative being read, the last one first. -/
structure Frame where
  capture : Option Nat := none
  outer : Options := {}
  alternatives : List Item := []
  items : List Item := []

/-- All that was read in a group, as one item. -/
def Frame.close (f : Frame) : Item :=
  .choice (.sequence f.items :: f.alternatives)

/-- The reader's state: the innermost group, the groups around it, the options in force, the number
of groups opened so far, and the text from the last repetition on, if one was just read. -/
structure State where
  frame : Frame := {}
  outside : List Frame := []
  options : Options := {}
  groups : Nat := 0
  lastRepeat : Option (List Char) := none

/-- The part of `s` before its ending `rest`. -/
def before (s rest : List Char) : List Char := s.take (s.length - rest.length)

namespace State

/-- The state with one more item read. -/
def push (st : State) (r : Regex) : State :=
  { st with frame := { st.frame with items := { regex := r } :: st.frame.items }, lastRepeat := none }

/-- The characters that a written character stands for. -/
def literalSet (o : Options) (c : Nat) : CharSet :=
  if o.fold then (Unicode.foldClass c).map fun x => (x, x) else [(c, c)]

def literal (st : State) (c : Nat) : State := st.push (.chars (literalSet st.options c))

end State

/-! ## Escapes and classes -/

def hexValue? (c : Char) : Option Nat :=
  if c.isDigit then some (c.toNat - 48)
  else if 'a' ≤ c && c ≤ 'f' then some (c.toNat - 87)
  else if 'A' ≤ c && c ≤ 'F' then some (c.toNat - 55)
  else none

def isOctal (c : Char) : Bool := '0' ≤ c && c ≤ '7'

/-- The digits of a braced code point up to its closing brace: the value and what follows. On
failure, what is left after the character that ends the attempt. -/
def readBracedHex (n count : Nat) : List Char → Except (List Char) (Nat × List Char)
  | [] => .error []
  | c :: rest =>
    if c == '}' then if count == 0 then .error rest else .ok (n, rest)
    else match hexValue? c with
      | none => .error rest
      | some v =>
        let n := n * 16 + v
        if n > CharSet.maxCode then .error rest else readBracedHex n (count + 1) rest

/-- The single character written by an escape at the start of `s`, which is a backslash. -/
def readEscape (s : List Char) : Except Flaw (Nat × List Char) :=
  let bad (rest : List Char) : Except Flaw (Nat × List Char) :=
    .error ⟨.invalidEscape, before s rest⟩
  match s.drop 1 with
  | [] => .error ⟨.trailingBackslash, []⟩
  | c :: t =>
    if c.toNat < 0x80 && !c.isAlphanum then .ok (c.toNat, t)
    else if c == '0' || (isOctal c && t.head?.any isOctal) then
      let digits := (t.take 2).takeWhile isOctal
      .ok (digits.foldl (fun n d => n * 8 + (d.toNat - 48)) (c.toNat - 48), t.drop digits.length)
    else match c with
      | 'a' => .ok (7, t)
      | 'f' => .ok (12, t)
      | 'n' => .ok (10, t)
      | 'r' => .ok (13, t)
      | 't' => .ok (9, t)
      | 'v' => .ok (11, t)
      | 'x' =>
        match t with
        | [] => bad []
        | '{' :: t =>
          match readBracedHex 0 0 t with
          | .ok r => .ok r
          | .error rest => bad rest
        | [_] => bad []
        | x :: y :: t =>
          match hexValue? x, hexValue? y with
          | some x, some y => .ok (x * 16 + y, t)
          | _, _ => bad t
      | _ => bad t

def digitSet : CharSet := [(0x30, 0x39)]

def spaceSet : CharSet := [(0x09, 0x0A), (0x0C, 0x0D), (0x20, 0x20)]

def wordSet : CharSet := [(0x30, 0x39), (0x41, 0x5A), (0x5F, 0x5F), (0x61, 0x7A)]

/-- A set under the options, complemented when `negated`. -/
def classSet (o : Options) (negated : Bool) (s : CharSet) : CharSet :=
  let s := if o.fold then Unicode.foldClosure s else s
  if negated then s.complement else s

/-- The class written by `\d`, `\s`, `\w` or their capital forms. -/
def readPerlClass? (o : Options) : List Char → Option (CharSet × List Char)
  | '\\' :: 'd' :: t => some (classSet o false digitSet, t)
  | '\\' :: 'D' :: t => some (classSet o true digitSet, t)
  | '\\' :: 's' :: t => some (classSet o false spaceSet, t)
  | '\\' :: 'S' :: t => some (classSet o true spaceSet, t)
  | '\\' :: 'w' :: t => some (classSet o false wordSet, t)
  | '\\' :: 'W' :: t => some (classSet o true wordSet, t)
  | _ => none

/-- The named classes of bracket expressions. -/
def posixClasses : List (String × CharSet) :=
  [("alnum", [(0x30, 0x39), (0x41, 0x5A), (0x61, 0x7A)]),
   ("alpha", [(0x41, 0x5A), (0x61, 0x7A)]),
   ("ascii", [(0x00, 0x7F)]),
   ("blank", [(0x09, 0x09), (0x20, 0x20)]),
   ("cntrl", [(0x00, 0x1F), (0x7F, 0x7F)]),
   ("digit", [(0x30, 0x39)]),
   ("graph", [(0x21, 0x7E)]),
   ("lower", [(0x61, 0x7A)]),
   ("print", [(0x20, 0x7E)]),
   ("punct", [(0x21, 0x2F), (0x3A, 0x40), (0x5B, 0x60), (0x7B, 0x7E)]),
   ("space", [(0x09, 0x0D), (0x20, 0x20)]),
   ("upper", [(0x41, 0x5A)]),
   ("word", [(0x30, 0x39), (0x41, 0x5A), (0x5F, 0x5F), (0x61, 0x7A)]),
   ("xdigit", [(0x30, 0x39), (0x41, 0x46), (0x61, 0x66)])]

/-- Where `:]` first stands in a text. -/
def colonBracket? : List Char → Option Nat
  | ':' :: ']' :: _ => some 0
  | _ :: rest => (colonBracket? rest).map (· + 1)
  | [] => none

/-- The class written by `[:name:]` inside brackets, if the text starts with such a name. -/
def readPosixClass? (o : Options) (s : List Char) : Except Flaw (Option (CharSet × List Char)) :=
  match s with
  | '[' :: ':' :: t =>
    match colonBracket? t with
    | none => .ok none
    | some i =>
      let name := t.take i
      let rest := t.drop (i + 2)
      let negated := name.head? == some '^'
      match posixClasses.lookup (String.ofList (if negated then name.drop 1 else name)) with
      | some cls => .ok (some (classSet o negated cls, rest))
      | none => .error ⟨.invalidCharRange, before s rest⟩
  | _ => .ok none

/-- The class written by `\pN`, `\p{Name}` and their negations, if the text starts so. -/
def readUnicodeClass? (o : Options) (s : List Char) :
    Except Flaw (Option (CharSet × List Char)) :=
  let finish (negated : Bool) (name seq rest : List Char) :
      Except Flaw (Option (CharSet × List Char)) :=
    let inner := name.head? == some '^'
    match Unicode.property? (String.ofList (if inner then name.drop 1 else name)) with
    | none => .error ⟨.invalidCharRange, seq⟩
    | some set => .ok (some (classSet o (negated != inner) set, rest))
  match s with
  | '\\' :: p :: t =>
    if p == 'p' || p == 'P' then
      match t with
      | '{' :: u =>
        match u.findIdx? (· == '}') with
        | none => .error ⟨.invalidCharRange, s⟩
        | some i => finish (p == 'P') (u.take i) (s.take (i + 4)) (u.drop (i + 1))
      | c :: u => finish (p == 'P') [c] (s.take 3) u
      | [] => finish (p == 'P') [] s []
    else .ok none
  | _ => .ok none

/-- One character of a bracket expression; `whole` is the text from its opening bracket on. -/
def readClassChar (whole : List Char) : List Char → Except Flaw (Nat × List Char)
  | [] => .error ⟨.missingBracket, whole⟩
  | '\\' :: rest => readEscape ('\\' :: rest)
  | c :: rest => .ok (c.toNat, rest)

/-- One member of a bracket expression: a class, a range or a character. -/
def readClassMember (o : Options) (whole s : List Char) : Except Flaw (CharSet × List Char) := do
  match ← readPosixClass? o s with
  | some r => return r
  | none =>
  match ← readUnicodeClass? o s with
  | some r => return r
  | none =>
  match readPerlClass? o s with
  | some r => return r
  | none =>
  let (lo, t) ← readClassChar whole s
  let range (hi : Nat) : CharSet :=
    if o.fold then Unicode.foldClosure [(lo, hi)] else [(lo, hi)]
  match t with
  | '-' :: c :: u =>
    if c == ']' then return (range lo, t)
    let (hi, v) ← readClassChar whole (c :: u)
    if hi < lo then throw ⟨.invalidCharRange, before s v⟩
    return (range hi, v)
  | _ => return (range lo, t)

/-- The members of a bracket expression up to its closing bracket. The first member may itself be
a closing bracket. -/
def readClassMembers (o : Options) (whole : List Char) :
    Nat → Bool → CharSet → List Char → Except Flaw (CharSet × List Char)
  | 0, _, set, t => .ok (set, t)
  | fuel + 1, first, set, t =>
    if t.head? == some ']' && !first then .ok (set, t.drop 1)
    else match readClassMember o whole t with
      | .error e => .error e
      | .ok (more, rest) => readClassMembers o whole fuel false (set ++ more) rest

/-- A bracket expression; `s` starts with its opening bracket. -/
def readClass (o : Options) (s : List Char) : Except Flaw (CharSet × List Char) := do
  let t := s.drop 1
  let negated := t.head? == some '^'
  let t := if negated then t.drop 1 else t
  let (set, rest) ← readClassMembers o s (t.length + 1) true [] t
  return (if negated then set.complement else set, rest)

/-! ## Repetitions -/

/-- A repeat count: digits without a superfluous leading zero. A count beyond a hundred million is
too large whatever its value. -/
def readCount? (s : List Char) : Option (Nat × List Char) :=
  let digits := s.takeWhile Char.isDigit
  match digits with
  | [] => none
  | '0' :: _ :: _ => none
  | _ => some (digits.foldl (fun n d => n * 10 + (d.toNat - 48)) 0, s.drop digits.length)

/-- The bounds written by `{n}`, `{n,}` or `{n,m}` at the start of `s`. -/
def readBounds? (s : List Char) : Option (Nat × Option Nat × List Char) :=
  match s with
  | '{' :: t =>
    match readCount? t with
    | none => none
    | some (least, t) =>
      match t with
      | '}' :: rest => some (least, some least, rest)
      | ',' :: '}' :: rest => some (least, none, rest)
      | ',' :: u =>
        match readCount? u with
        | some (most, '}' :: rest) => some (least, some most, rest)
        | _ => none
      | _ => none
  | _ => none

/-- The greatest count a repetition may have, and nested repetitions may multiply to. -/
def maxRepeat : Nat := 1000

/-- The last item repeated. `s` starts at the operator and `rest` follows it. -/
def repeatLast (st : State) (whole : List Char) (least : Nat) (most : Option Nat) (counted : Bool)
    (s rest : List Char) : Except Flaw (State × List Char) :=
  let marked := rest.head? == some '?'
  let rest := if marked then rest.drop 1 else rest
  match st.lastRepeat with
  | some last => .error ⟨.invalidRepeatOp, before last rest⟩
  | none =>
    match st.frame.items with
    | [] => .error ⟨.missingRepeatArgument, before s rest⟩
    | item :: items =>
      let item := item.repeated least most (st.options.lazy == marked)
      match item.fault? with
      | some f => .error ⟨f, whole⟩
      | none =>
        if counted && (2 ≤ least || most.any (2 ≤ ·)) && !item.regex.repeatsWithin maxRepeat then
          .error ⟨.invalidRepeatSize, before s rest⟩
        else
          .ok ({ st with frame := { st.frame with items := item :: items }, lastRepeat := some s }, rest)

/-! ## Groups and options -/

def isCaptureName (name : List Char) : Bool :=
  !name.isEmpty && name.all fun c => c.isAlphanum || c == '_'

/-- The state inside a new group. -/
def State.openGroup (st : State) (capture : Bool) : State :=
  let groups := if capture then st.groups + 1 else st.groups
  { st with
    frame := { capture := if capture then some groups else none, outer := st.options }
    outside := st.frame :: st.outside
    groups := groups
    lastRepeat := none }

/-- The state after the innermost group has closed. -/
def State.closeGroup (st : State) (whole : List Char) : Except Flaw State :=
  let body := st.frame.close
  match body.fault?, st.outside with
  | some f, _ => .error ⟨f, whole⟩
  | none, [] => .error ⟨.unexpectedParen, whole⟩
  | none, frame :: outside =>
    let item := match st.frame.capture with
      | none => body
      | some n => body.remembered n
    match item.fault? with
    | some f => .error ⟨f, whole⟩
    | none =>
      .ok { st with
        frame := { frame with items := item :: frame.items }
        outside := outside
        options := st.frame.outer
        lastRepeat := none }

/-- The letters after `(?`: `on` says whether they switch options on, and `seen` whether one was
read since the sign. The result is the new options, whether a group opens, and what follows. -/
def readOptions (s : List Char) :
    Options → Bool → Bool → List Char → Except Flaw (Options × Bool × List Char)
  | _, _, _, [] => .error ⟨.invalidPerlOp, s⟩
  | o, on, seen, c :: t =>
    match c with
    | 'i' => readOptions s { o with fold := on } on true t
    | 'm' => readOptions s { o with multiLine := on } on true t
    | 's' => readOptions s { o with dotAll := on } on true t
    | 'U' => readOptions s { o with lazy := on } on true t
    | '-' =>
      if on then readOptions s o false false t else .error ⟨.invalidPerlOp, before s t⟩
    | ':' => if !on && !seen then .error ⟨.invalidPerlOp, before s t⟩ else .ok (o, true, t)
    | ')' => if !on && !seen then .error ⟨.invalidPerlOp, before s t⟩ else .ok (o, false, t)
    | _ => .error ⟨.invalidPerlOp, before s t⟩

/-- A group that starts with `(?`: a named group, a group that is not remembered, or options. -/
def readSpecialGroup (st : State) (s : List Char) : Except Flaw (State × List Char) :=
  let named? : Option (List Char) :=
    match s.drop 2 with
    | 'P' :: '<' :: c :: t => some (c :: t)
    | '<' :: c :: t => some (c :: t)
    | _ => none
  match named? with
  | some t =>
    match t.findIdx? (· == '>') with
    | none => .error ⟨.invalidNamedCapture, s⟩
    | some i =>
      let rest := t.drop (i + 1)
      if isCaptureName (t.take i) then .ok (st.openGroup true, rest)
      else .error ⟨.invalidNamedCapture, before s rest⟩
  | none =>
    match readOptions s st.options true false (s.drop 2) with
    | .error e => .error e
    | .ok (o, opens, rest) =>
      let inside := if opens then st.openGroup false else { st with lastRepeat := none }
      .ok ({ inside with options := o }, rest)

/-! ## The reader -/

/-- Where `\E` first stands in a text. -/
def quoteEnd? : List Char → Option Nat
  | '\\' :: 'E' :: _ => some 0
  | _ :: rest => (quoteEnd? rest).map (· + 1)
  | [] => none

/-- An item that starts with a backslash. -/
def readBackslash (st : State) (s : List Char) : Except Flaw (State × List Char) := do
  match s with
  | '\\' :: 'A' :: t => return (st.push (.place .textStart), t)
  | '\\' :: 'b' :: t => return (st.push (.place .wordBoundary), t)
  | '\\' :: 'B' :: t => return (st.push (.place .noWordBoundary), t)
  | '\\' :: 'z' :: t => return (st.push (.place .textEnd), t)
  | '\\' :: 'C' :: _ => throw ⟨.invalidEscape, s.take 2⟩
  | '\\' :: 'Q' :: t =>
    let (quoted, rest) := match quoteEnd? t with
      | some i => (t.take i, t.drop (i + 2))
      | none => (t, [])
    return ({ quoted.foldl (fun st c => st.literal c.toNat) st with lastRepeat := none }, rest)
  | _ =>
    match ← readUnicodeClass? st.options s with
    | some (set, rest) => return (st.push (.chars set), rest)
    | none =>
    match readPerlClass? st.options s with
    | some (set, rest) => return (st.push (.chars set), rest)
    | none =>
    let (c, rest) ← readEscape s
    return (st.literal c, rest)

/-- One step of the reader, over the item at the start of `s`. -/
def step (whole : List Char) (st : State) (s : List Char) : Except Flaw (State × List Char) :=
  match s with
  | [] => .ok (st, [])
  | c :: t =>
    match c with
    | '(' =>
      if t.head? == some '?' then readSpecialGroup st s else .ok (st.openGroup true, t)
    | '|' =>
      let done := Item.sequence st.frame.items
      match done.fault? with
      | some f => .error ⟨f, whole⟩
      | none =>
        .ok ({ st with
          frame := { st.frame with items := [], alternatives := done :: st.frame.alternatives }
          lastRepeat := none }, t)
    | ')' => (st.closeGroup whole).map (·, t)
    | '^' => .ok (st.push (.place (if st.options.multiLine then .lineStart else .textStart)), t)
    | '$' => .ok (st.push (.place (if st.options.multiLine then .lineEnd else .textEnd)), t)
    | '.' =>
      let set := if st.options.dotAll then CharSet.all else CharSet.complement [(10, 10)]
      .ok (st.push (.chars set), t)
    | '[' => (readClass st.options s).map fun (set, rest) => (st.push (.chars set), rest)
    | '*' => repeatLast st whole 0 none false s t
    | '+' => repeatLast st whole 1 none false s t
    | '?' => repeatLast st whole 0 (some 1) false s t
    | '{' =>
      match readBounds? s with
      | none => .ok (st.literal c.toNat, t)
      | some (least, most, rest) =>
        if least > maxRepeat || most.any fun m => m > maxRepeat || least > m then
          .error ⟨.invalidRepeatSize, before s rest⟩
        else repeatLast st whole least most true s rest
    | '\\' => readBackslash st s
    | c => .ok (st.literal c.toNat, t)

/-- Whether a fault is shown by the whole expression. -/
def Fault.ofWhole (f : Fault) : Bool :=
  f == .unexpectedParen || f == .nestingDepth || f == .tooLarge

/-- Whether a flaw was found without a look beyond the first `length` characters. -/
def Flaw.within (f : Flaw) (length : Nat) : Bool :=
  f.fault.ofWhole || f.fault == .invalidRepeatOp || f.part.length ≤ length

/-- The reader run to the end of the text; each step takes at least one character. The last `stray`
characters start with one that stands for a byte that starts none, and nothing is read beyond it. -/
def run (whole : List Char) (stray : Nat) : Nat → State → List Char → Except Flaw State
  | 0, st, _ => .ok st
  | fuel + 1, st, s =>
    if s.isEmpty then .ok st
    else match step whole st s with
      | .error f => .error (if stray == 0 || f.within (s.length - stray) then f else ⟨.invalidUtf8, []⟩)
      | .ok (st, rest) =>
        if stray != 0 && rest.length < stray then .error ⟨.invalidUtf8, []⟩
        else run whole stray fuel st rest

/-- The expression that a text writes. -/
def read (source : Text) : Except Error Regex :=
  let runes := source.runes
  let good := runes.takeWhile fun r => !r.isStray
  let chars := runes.map (·.char)
  match run chars (runes.length - good.length) (chars.length + 1) {} chars with
  | .error f => .error ⟨f.fault,
      if f.fault == .invalidUtf8 then source.drop (good.foldl (fun n r => n + r.width) 0)
      else if f.fault.ofWhole then source
      else Text.ofChars f.part⟩
  | .ok st =>
    let item := st.frame.close
    match item.fault? with
    | some f => .error ⟨f, source⟩
    | none => if st.outside.isEmpty then .ok item.regex else .error ⟨.missingParen, source⟩

end LiteralAudit.Regex
