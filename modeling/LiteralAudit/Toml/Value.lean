import LiteralAudit.Settings.Value

/-!
# Values of TOML

Keys, strings, numbers, times, arrays and inline tables. Each reader takes the characters at hand and
returns what it read and the characters left, or nothing when they are no such value.
-/

namespace LiteralAudit.Toml

abbrev Reader (α : Type) := List Char → Option (α × List Char)

def isBlank (c : Char) : Bool := c == ' ' || c == '\t'

def skipBlanks (s : List Char) : List Char := s.dropWhile isBlank

/-- What follows a line break. -/
def newline? : List Char → Option (List Char)
  | '\n' :: rest => some rest
  | '\r' :: '\n' :: rest => some rest
  | _ => none

/-- Characters that stand nowhere but in escapes. -/
def isControl (c : Char) : Bool := (c.toNat < 0x20 && c != '\t') || c.toNat == 0x7F

/-- What follows a comment, which may not hold control characters; a text without one is left. -/
def skipComment? (s : List Char) : Option (List Char) :=
  match s with
  | '#' :: _ =>
    let rest := s.dropWhile (!isControl ·)
    if rest.isEmpty || (newline? rest).isSome then some rest else none
  | _ => some s

/-- The end of a line: blanks, a comment and a line break or the end of the text. -/
def endLine? (s : List Char) : Option (List Char) := do
  let s ← skipComment? (skipBlanks s)
  if s.isEmpty then some [] else newline? s

/-- Skips blanks, comments and line breaks. -/
def skipSpace? : Nat → List Char → Option (List Char)
  | 0, _ => none
  | fuel + 1, s => do
    let s ← skipComment? (skipBlanks s)
    match newline? s with
    | some rest => skipSpace? fuel rest
    | none => some s

/-! ## Strings -/

/-- The character of a hexadecimal escape of `width` digits. -/
def hexEscape? (width : Nat) (s : List Char) : Option (Char × List Char) :=
  let digits := s.take width
  if digits.length < width then none
  else (Yaml.hexChar? digits).map (·, s.drop width)

/-- The character that stands behind a backslash. -/
def escape? : List Char → Option (Char × List Char)
  | 'b' :: s => some (Char.ofNat 8, s)
  | 't' :: s => some ('\t', s)
  | 'n' :: s => some ('\n', s)
  | 'f' :: s => some (Char.ofNat 12, s)
  | 'r' :: s => some ('\r', s)
  | 'e' :: s => some (Char.ofNat 27, s)
  | '"' :: s => some ('"', s)
  | '\\' :: s => some ('\\', s)
  | 'u' :: s => hexEscape? 4 s
  | 'U' :: s => hexEscape? 8 s
  | _ => none

/-- The rest of a string of one line, `done` being what was read in reverse. -/
def basicFrom : Nat → List Char → Reader (List Char)
  | 0, _, _ => none
  | fuel + 1, done, s =>
    match s with
    | [] => none
    | '"' :: rest => some (done.reverse, rest)
    | '\\' :: rest => match escape? rest with
      | some (c, rest) => basicFrom fuel (c :: done) rest
      | none => none
    | c :: rest => if isControl c then none else basicFrom fuel (c :: done) rest

/-- The blanks and line breaks that a backslash at the end of a line removes. -/
def skipFold (s : List Char) : List Char :=
  s.dropWhile fun c => isBlank c || c == '\n' || c == '\r'

/-- The end of a string of several lines: up to two of its quotes stand before the closing three. -/
def closing? (quote : Char) (s : List Char) : Option (List Char × List Char) :=
  let quotes := (s.takeWhile (· == quote)).length
  if quotes < 3 then none
  else
    let kept := min (quotes - 3) 2
    some (List.replicate kept quote, s.drop (kept + 3))

def multilineFrom : Nat → List Char → Reader (List Char)
  | 0, _, _ => none
  | fuel + 1, done, s =>
    match closing? '"' s with
    | some (quotes, rest) => some (done.reverse ++ quotes, rest)
    | none =>
      match s with
      | [] => none
      | '\\' :: rest =>
        match newline? (skipBlanks rest) with
        | some rest => multilineFrom fuel done (skipFold rest)
        | none => match escape? rest with
          | some (c, rest) => multilineFrom fuel (c :: done) rest
          | none => none
      | c :: rest =>
        match newline? s with
        | some rest => multilineFrom fuel ('\n' :: (if c == '\r' then '\r' :: done else done)) rest
        | none => if isControl c then none else multilineFrom fuel (c :: done) rest

def literalMultilineFrom : Nat → List Char → Reader (List Char)
  | 0, _, _ => none
  | fuel + 1, done, s =>
    match closing? '\'' s with
    | some (quotes, rest) => some (done.reverse ++ quotes, rest)
    | none =>
      match s with
      | [] => none
      | c :: rest =>
        match newline? s with
        | some rest =>
          literalMultilineFrom fuel ('\n' :: (if c == '\r' then '\r' :: done else done)) rest
        | none => if isControl c then none else literalMultilineFrom fuel (c :: done) rest

/-- A string between single quotes, behind the first one. -/
def literal? (s : List Char) : Option (List Char × List Char) :=
  let body := s.takeWhile fun c => c != '\'' && !isControl c
  match s.drop body.length with
  | '\'' :: rest => some (body, rest)
  | _ => none

/-- A string of any of the four kinds. -/
def string? (s : List Char) : Option (Text × List Char) :=
  let dropNewline (s : List Char) : List Char := (newline? s).getD s
  let read := match s with
    | '"' :: '"' :: '"' :: rest => multilineFrom (rest.length + 1) [] (dropNewline rest)
    | '"' :: rest => basicFrom (rest.length + 1) [] rest
    | '\'' :: '\'' :: '\'' :: rest => literalMultilineFrom (rest.length + 1) [] (dropNewline rest)
    | '\'' :: rest => literal? rest
    | _ => none
  read.map fun (cs, rest) => (Text.ofChars cs, rest)

/-! ## Keys -/

def isBareKey (c : Char) : Bool := c.isAlphanum || c == '-' || c == '_'

def simpleKey? (s : List Char) : Option (Text × List Char) :=
  match s with
  | '"' :: rest => (basicFrom (rest.length + 1) [] rest).map fun (cs, r) => (Text.ofChars cs, r)
  | '\'' :: rest => (literal? rest).map fun (cs, r) => (Text.ofChars cs, r)
  | _ =>
    let key := s.takeWhile isBareKey
    if key.isEmpty then none else some (Text.ofChars key, s.drop key.length)

/-- A key with its parts divided by points. -/
def key? : Nat → Reader (List Text)
  | 0, _ => none
  | fuel + 1, s => do
    let (part, rest) ← simpleKey? s
    match skipBlanks rest with
    | '.' :: rest =>
      let (parts, rest) ← key? fuel (skipBlanks rest)
      return (part :: parts, rest)
    | rest => return ([part], rest)

/-! ## Numbers and times -/

/-- Digits whose underscores all stand between digits, without them. -/
def joinDigits? (ds : List Char) : Option (List Char) :=
  let rec alone : Bool → List Char → Bool
    | _, [] => true
    | before, '_' :: rest => before && (rest.head?.any (· != '_')) && alone false rest
    | _, _ :: rest => alone true rest
  if ds.isEmpty || !alone false ds then none else some (ds.filter (· != '_'))

/-- An integer of 64 bits. -/
def integer? (negative : Bool) (base : Nat) (digits : List Char) : Option Setting := do
  let ds ← joinDigits? digits
  let n ← Number.readDigits? base (Text.ofChars ds)
  (Number.signed? negative n).map .int

def decimal? (negative : Bool) (digits : List Char) : Option Setting :=
  match digits with
  | '0' :: _ :: _ => none
  | _ => integer? negative 10 digits

/-- A number with a point or an exponent. -/
def float? (negative : Bool) (s : List Char) : Option Setting := do
  let whole := s.takeWhile fun c => c.isDigit || c == '_'
  let rest := s.drop whole.length
  let (fraction?, rest) := match rest with
    | '.' :: after =>
      let ds := after.takeWhile fun c => c.isDigit || c == '_'
      (some ds, after.drop ds.length)
    | _ => (none, rest)
  let exponent? : Option (List Char) := match rest with
    | _ :: after => some after
    | [] => none
  let whole ← joinDigits? whole
  if whole.length > 1 && whole.head? == some '0' then none
  else
    let fraction ← match fraction? with
      | some ds => (joinDigits? ds).map ('.' :: ·)
      | none => some []
    let exponent ← match exponent? with
      | none => some []
      | some e =>
        let (sign, ds) := match e with
          | '+' :: ds => (['+'], ds)
          | '-' :: ds => (['-'], ds)
          | _ => ([], e)
        if ds.all (fun c => c.isDigit || c == '_') then
          (joinDigits? ds).map fun ds => 'e' :: sign ++ ds
        else none
    let x ← Number.readReal? (Text.ofChars (whole ++ fraction ++ exponent))
    return .float (if negative then -x else x)

/-- Two digits at the start of the text. -/
def twoDigits? : Reader Nat
  | a :: b :: rest =>
    if a.isDigit && b.isDigit then some (10 * (a.toNat - 48) + (b.toNat - 48), rest) else none
  | _ => none

def char? (c : Char) : Reader Unit
  | x :: rest => if x == c then some ((), rest) else none
  | [] => none

/-- A date such as `1979-05-27`. -/
def date? (s : List Char) : Option (Unit × List Char) := do
  let (high, s) ← twoDigits? s
  let (low, s) ← twoDigits? s
  let (_, s) ← char? '-' s
  let (month, s) ← twoDigits? s
  let (_, s) ← char? '-' s
  let (day, s) ← twoDigits? s
  let year := 100 * high + low
  if 1 ≤ month && month ≤ 12 && 1 ≤ day && day ≤ Time.daysIn year month then some ((), s) else none

/-- A time of day such as `07:32:00.5`. -/
def timeOfDay? (s : List Char) : Option (Unit × List Char) := do
  let (hour, s) ← twoDigits? s
  let (_, s) ← char? ':' s
  let (minute, s) ← twoDigits? s
  let (_, s) ← char? ':' s
  let (second, s) ← twoDigits? s
  if hour > 23 || minute > 59 || second > 60 then none
  else match s with
    | '.' :: rest =>
      let ds := rest.takeWhile Char.isDigit
      if ds.isEmpty then none else some ((), rest.drop ds.length)
    | _ => some ((), s)

/-- A distance from universal time, which may be missing. -/
def zone? (s : List Char) : Option (Unit × List Char) :=
  match s with
  | 'Z' :: rest | 'z' :: rest => some ((), rest)
  | c :: rest =>
    if c == '+' || c == '-' then do
      let (hours, rest) ← twoDigits? rest
      let (_, rest) ← char? ':' rest
      let (minutes, rest) ← twoDigits? rest
      if hours > 23 || minutes > 59 then none else some ((), rest)
    else some ((), s)
  | [] => some ((), s)

/-- A date, a time of day, or both. -/
def time? (s : List Char) : Option (Setting × List Char) :=
  if (s.drop 2).head? == some ':' then (timeOfDay? s).map fun (_, rest) => (.time, rest)
  else do
    let (_, rest) ← date? s
    match rest with
    | sep :: after =>
      if sep == 'T' || sep == 't' || (sep == ' ' && after.head?.any Char.isDigit) then
        let (_, rest) ← timeOfDay? after
        let (_, rest) ← zone? rest
        return (.time, rest)
      else return (.time, rest)
    | [] => return (.time, [])

/-- Whether digits start a date or a time of day. -/
def startsTime (s : List Char) : Bool :=
  let digits := (s.takeWhile Char.isDigit).length
  (digits == 2 && (s.drop 2).head? == some ':') || (digits == 4 && (s.drop 4).head? == some '-')

/-- A number. -/
def number? (s : List Char) : Option (Setting × List Char) :=
  let (negative, signed, body) := match s with
    | '-' :: rest => (true, true, rest)
    | '+' :: rest => (false, true, rest)
    | _ => (false, false, s)
  let based (base : Nat) (rest : List Char) : Option (Setting × List Char) :=
    let ds := rest.takeWhile fun c =>
      c == '_' || (Number.digitValue? c.toUInt8).any (· < base) && c.toNat < 128
    if signed then none else (integer? false base ds).map (·, rest.drop ds.length)
  match body with
  | 'i' :: 'n' :: 'f' :: rest =>
    some (.float (if negative then -Number.infinity else Number.infinity), rest)
  | 'n' :: 'a' :: 'n' :: rest => some (.float Number.nan, rest)
  | '0' :: 'x' :: rest => based 16 rest
  | '0' :: 'o' :: rest => based 8 rest
  | '0' :: 'b' :: rest => based 2 rest
  | _ =>
    let token := body.takeWhile fun c =>
      c.isDigit || c == '_' || c == '.' || c == 'e' || c == 'E' || c == '+' || c == '-'
    let value? := if token.any fun c => c == '.' || c == 'e' || c == 'E' then float? negative token
      else decimal? negative token
    value?.map (·, body.drop token.length)

/-! ## Values -/

/-- Whether a path of names can be set after others: no path leads through the value of another. -/
def isFree (path : List Text) (done : List (List Text × Setting)) : Bool :=
  done.all fun (other, _) => !path.isPrefixOf other && !other.isPrefixOf path

mutual

/-- A value; `fuel` bounds how deep it nests. -/
def value? : Nat → Reader Setting
  | 0, _ => none
  | fuel + 1, s =>
    match s with
    | '"' :: _ | '\'' :: _ => (string? s).map fun (t, rest) => (.text t, rest)
    | 't' :: 'r' :: 'u' :: 'e' :: rest => some (.bool true, rest)
    | 'f' :: 'a' :: 'l' :: 's' :: 'e' :: rest => some (.bool false, rest)
    | '[' :: rest => (items? fuel true rest).map fun (items, rest) => (.list items, rest)
    | '\x7b' :: rest => (fields? fuel true [] rest).map fun (fields, rest) =>
      (.table (fields.foldl (fun es (path, v) => Setting.putPath v path es) []), rest)
    | _ => if startsTime s then time? s else number? s

/-- The items of an array up to its bracket. -/
def items? : Nat → Bool → Reader (List Setting)
  | 0, _, _ => none
  | fuel + 1, first, s => do
    let s ← skipSpace? (s.length + 1) s
    match s with
    | ']' :: rest => return ([], rest)
    | c :: rest =>
      let s ← if first then (if c == ',' then none else some s)
        else if c == ',' then skipSpace? (rest.length + 1) rest else none
      match s with
      | ']' :: rest => return ([], rest)
      | _ =>
        let (item, rest) ← value? fuel s
        let (items, rest) ← items? fuel false rest
        return (item :: items, rest)
    | [] => none

/-- The fields of an inline table up to its brace, each with its path of names. -/
def fields? : Nat → Bool → List (List Text × Setting) → Reader (List (List Text × Setting))
  | 0, _, _, _ => none
  | fuel + 1, first, done, s =>
    match skipBlanks s with
    | '\x7d' :: rest => some (done.reverse, rest)
    | c :: rest => do
      let s ← if first then some (c :: rest) else if c == ',' then some (skipBlanks rest) else none
      let (path, rest) ← key? (s.length + 1) s
      let (_, rest) ← char? '=' (skipBlanks rest)
      let (v, rest) ← value? fuel (skipBlanks rest)
      if isFree path done then fields? fuel false ((path, v) :: done) rest else none
    | [] => none

end

end LiteralAudit.Toml
