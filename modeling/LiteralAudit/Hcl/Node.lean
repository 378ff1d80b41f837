import LiteralAudit.Hcl.Token

/-!
# Trees of HCL

An item has one key or several and a value: a plain one, a list, or an object, which holds items.
`Hcl.parse` reads the items of a document.
-/

namespace LiteralAudit.Hcl

inductive Node where
  | literal (token : Token)
  | list (items : List Node)
  /-- The keys and the value of each item. -/
  | object (items : List (List (Option Text) × Node))
  deriving Inhabited

/-- An item: its keys and its value. -/
abbrev Item := List (Option Text) × Node

/-- Why reading items stops. -/
inductive Stop where
  /-- The document ends where an item or its value could start. -/
  | ended
  /-- A brace stands where a value should; what follows it is left. -/
  | brace (rest : List Token)
  | fault
  deriving Repr, DecidableEq

/-- Reading stops at a token that does not fit. -/
def Stop.before : List Token → Stop
  | .closeObject :: rest => .brace rest
  | _ => .fault

/-- What was read of a list of items: the items, why it stopped if it did before its end, and the tokens
left. -/
structure Items where
  items : List Item
  stop? : Option Stop := none
  rest : List Token

/-! ## HCL -/

/-- The keys at the start of an item, and what follows them. -/
def keys (done : List (Option Text)) : List Token → List (Option Text) × List Token
  | .name t :: rest => keys (some t :: done) rest
  | .text t? :: rest => keys (t? :: done) rest
  | rest => (done.reverse, rest)

mutual

/-- The value behind an assignment; `fuel` bounds how deep it nests. -/
def value : Nat → List Token → Except Stop (Node × List Token)
  | 0, _ => .error .fault
  | fuel + 1, tokens =>
    match tokens with
    | [] => .error .ended
    | .openObject :: rest => object fuel rest
    | .openList :: rest => list fuel false [] rest
    | token :: rest =>
      match token with
      | .bool _ | .whole _ | .decimal _ | .text _ => .ok (.literal token, rest)
      | _ => .error (Stop.before tokens)

/-- The items of an object and the brace behind them. A brace in place of a value ends the items too. -/
def object : Nat → List Token → Except Stop (Node × List Token)
  | 0, _ => .error .fault
  | fuel + 1, tokens =>
    let read := items fuel true [] tokens
    let rest? := match read.stop? with
      | none => some read.rest
      | some (.brace rest) => some rest
      | some _ => none
    match rest? with
    | some (.closeObject :: rest) => .ok (.object read.items, rest)
    | _ => .error .fault

/-- The values of a list, with commas between them; a value in brackets needs none behind it. -/
def list : Nat → Bool → List Node → List Token → Except Stop (Node × List Token)
  | 0, _, _, _ => .error .fault
  | fuel + 1, needsComma, done, tokens =>
    match tokens with
    | .closeList :: rest => .ok (.list done.reverse, rest)
    | .comma :: rest => list fuel false done rest
    | token :: rest =>
      if needsComma then .error (Stop.before tokens)
      else match token with
        | .bool _ | .whole _ | .decimal _ | .text _ => list fuel true (.literal token :: done) rest
        | .openObject =>
          match object fuel rest with
          | .ok (node, rest) => list fuel true (node :: done) rest
          | .error e => .error e
        | .openList =>
          match list fuel false [] rest with
          | .ok (node, rest) => list fuel false (node :: done) rest
          | .error e => .error e
        | _ => .error (Stop.before tokens)
    | [] => .error .fault

/-- The items of an object, if `inside` one, or of the document, with commas between them or not. -/
def items : Nat → Bool → List Item → List Token → Items
  | 0, _, done, tokens => ⟨done.reverse, some .fault, tokens⟩
  | fuel + 1, inside, done, tokens =>
    let stop (s : Stop) : Items := ⟨done.reverse, some s, tokens⟩
    let next (keys : List (Option Text)) (read : Except Stop (Node × List Token)) : Items :=
      match read with
      | .error .ended => ⟨done.reverse, none, []⟩
      | .error s => stop s
      | .ok (node, .comma :: rest) => items fuel inside ((keys, node) :: done) rest
      | .ok (node, rest) => items fuel inside ((keys, node) :: done) rest
    if inside && tokens.head? == some .closeObject then ⟨done.reverse, none, tokens⟩
    else if tokens.isEmpty then ⟨done.reverse, none, []⟩
    else
      let (keys, rest) := keys [] tokens
      match rest with
      | .assign :: rest => if keys.length == 1 then next keys (value fuel rest) else stop .fault
      | .openObject :: rest => if keys.isEmpty then stop .fault else next keys (object fuel rest)
      | _ => stop .fault

end

/-- The items of a document in HCL. -/
def parse? (tokens : List Token) : Option (List Item) :=
  let read := items (2 * tokens.length + 2) false [] tokens
  if read.stop?.isSome then none else some read.items

/-! ## JSON -/

/-- The keys of a field up to its colon. -/
def jsonKeys (done : List (Option Text)) : List Token → Except Stop (List (Option Text) × List Token)
  | [] => .error .ended
  | .text t? :: rest => jsonKeys (t? :: done) rest
  | .colon :: rest => if done.isEmpty then .error .fault else .ok (done.reverse, rest)
  | tokens => .error (Stop.before tokens)

mutual

/-- The value of a field; null is the empty text. -/
def jsonValue : Nat → List Token → Except Stop (Node × List Token)
  | 0, _ => .error .fault
  | fuel + 1, tokens =>
    match tokens with
    | [] => .error .ended
    | .openObject :: rest => jsonObject fuel rest
    | .openList :: rest => jsonList fuel [] rest
    | .null :: rest => .ok (.literal (.text (some [])), rest)
    | token :: rest =>
      match token with
      | .bool _ | .whole _ | .decimal _ | .text _ => .ok (.literal token, rest)
      | _ => .error (Stop.before tokens)

/-- The fields of an object. Whatever follows them ends it. -/
def jsonObject : Nat → List Token → Except Stop (Node × List Token)
  | 0, _ => .error .fault
  | fuel + 1, tokens =>
    let read := jsonFields fuel [] tokens
    match read.stop? with
    | none => .ok (.object read.items, read.rest)
    | some (.brace rest) => .ok (.object read.items, rest)
    | some _ => .error .fault

/-- The values of a list. Truth values and brackets within it are passed over. -/
def jsonList : Nat → List Node → List Token → Except Stop (Node × List Token)
  | 0, _, _ => .error .fault
  | fuel + 1, done, tokens =>
    match tokens with
    | .closeList :: rest => .ok (.list done.reverse, rest)
    | .comma :: rest | .openList :: rest | .bool _ :: rest => jsonList fuel done rest
    | .openObject :: rest =>
      match jsonObject fuel rest with
      | .ok (node, rest) => jsonList fuel (node :: done) rest
      | .error e => .error e
    | token :: rest =>
      match token with
      | .whole _ | .decimal _ | .text _ => jsonList fuel (.literal token :: done) rest
      | _ => .error (Stop.before tokens)
    | [] => .error .fault

def jsonFields : Nat → List Item → List Token → Items
  | 0, done, tokens => ⟨done.reverse, some .fault, tokens⟩
  | fuel + 1, done, tokens =>
    let read : Except Stop (Item × List Token) := do
      let (keys, rest) ← jsonKeys [] tokens
      let (node, rest) ← jsonValue fuel rest
      return ((keys, node), rest)
    match read with
    | .error .ended => ⟨done.reverse, none, []⟩
    | .error s => ⟨done.reverse, some s, tokens⟩
    | .ok (item, .comma :: rest) => jsonFields fuel (item :: done) rest
    | .ok (item, .illegal :: rest) => ⟨(item :: done).reverse, some .fault, rest⟩
    | .ok (item, rest) => ⟨(item :: done).reverse, none, rest.drop 1⟩

end

/-- The items of a document in JSON: one object, behind which anything may stand. -/
def parseJson? (tokens : List Token) : Option (List Item) :=
  match tokens with
  | .openObject :: rest =>
    match jsonObject (2 * tokens.length + 2) rest with
    | .ok (.object items, _) => some items
    | _ => none
  | _ => none

end LiteralAudit.Hcl
