import LiteralAudit.Yaml.Scanner

/-!
# YAML nodes

The nodes of the first document of a stream. An alias holds the node that it names.

`Yaml.document?` reads a document; a stream without one has the node `none`.
-/

namespace LiteralAudit.Yaml

inductive Node where
  /-- A scalar; the tag is empty when none is written. -/
  | scalar (tag : Text) (style : Style) (text : Text)
  | sequence (tag : Text) (items : List Node)
  | mapping (tag : Text) (entries : List (Node × Node))
  /-- A node by its name; none when the alias stands inside that node. -/
  | aliased (name : List Char) (target? : Option Node)
  deriving Inhabited

/-- What a missing node stands for. -/
def Node.empty : Node := .scalar [] .plain []

/-- What has been read: the tokens left and the anchored nodes. -/
structure Reading where
  tokens : List Token
  /-- The anchored nodes, the one that started last first; a node that has not ended yet is none. -/
  anchors : List (List Char × Option Node) := []
  /-- What tag handles stand for. -/
  handles : List (List Char × Text) := []

/-- How many tokens beyond the current one are scanned before it is used. -/
def lookahead : Nat := 2

abbrev Read := StateT Reading Option

namespace Read

/-- The current token. A fault close behind it is met at once, and so is one that stands in the way of
telling whether the token starts a key. -/
def peek : Read Token := fun r =>
  let t := (r.tokens.head?).getD .streamEnd
  if t == .unsettled || (r.tokens.take (lookahead + 1)).contains .fault then none
  else some (t, r)

def skip : Read Unit := modify fun r => { r with tokens := r.tokens.drop 1 }

def fail : Read α := fun _ => none

/-- Passes a token, which must be the one given. -/
def expect (t : Token) : Read Unit := do
  if (← peek) == t then skip else fail

/-- The tag that a handle and a suffix write. -/
def expandTag (handle : List Char) (suffix : Text) : Read Text := fun r =>
  if handle.isEmpty then some (suffix, r)
  else (r.handles.lookup handle).map fun expansion => (expansion ++ suffix, r)

/-- The anchor and the tag before a node, in either order. -/
def properties : Nat → Option (List Char) → Option Text → Read (Option (List Char) × Option Text)
  | 0, a?, t? => return (a?, t?)
  | fuel + 1, a?, t? => do
    match ← peek with
    | .anchor name =>
      if a?.isSome then return (a?, t?)
      skip
      properties fuel (some name) t?
    | .tag handle suffix =>
      if t?.isSome then return (a?, t?)
      skip
      properties fuel a? (some (← expandTag handle suffix))
    | _ => return (a?, t?)

/-- Reads a node behind its anchor. -/
def anchored (a? : Option (List Char)) (read : Read Node) : Read Node := do
  match a? with
  | none => read
  | some name =>
    let before := (← get).anchors
    modify fun r => { r with anchors := (name, none) :: before }
    let n ← read
    modify fun r => { r with
      anchors := r.anchors.take (r.anchors.length - before.length - 1) ++ (name, some n) :: before }
    return n

/-- The parsers of the nodes inside collections. -/
structure Nested where
  fuel : Nat
  /-- A node; `block` allows block collections and `indentless` sequences that are not indented. -/
  node : (block indentless : Bool) → Read Node

namespace Nested

variable (p : Nested)

/-- A node, or the empty one before a token that cannot start any. -/
def nodeUnless (stops : List Token) (block indentless : Bool) : Read Node := do
  if stops.contains (← peek) then return .empty else p.node block indentless

/-- The entries of a block sequence up to its end. -/
def blockItems : Nat → Read (List Node)
  | 0 => fail
  | fuel + 1 => do
    match ← peek with
    | .blockEntry =>
      skip
      let item ← p.nodeUnless [.blockEntry, .blockEnd] true false
      return item :: (← blockItems fuel)
    | .blockEnd =>
      skip
      return []
    | _ => fail

/-- The entries of a sequence that is not indented; nothing marks its end. -/
def indentlessItems : Nat → Read (List Node)
  | 0 => fail
  | fuel + 1 => do
    match ← peek with
    | .blockEntry =>
      skip
      let item ← p.nodeUnless [.blockEntry, .key, .value, .blockEnd] true false
      return item :: (← indentlessItems fuel)
    | _ => return []

/-- The value behind a key, or the empty one when there is no colon. -/
def valueAfter (stops : List Token) (block indentless : Bool) : Read Node := do
  if (← peek) == .value then
    skip
    p.nodeUnless stops block indentless
  else return .empty

def blockEntries : Nat → Read (List (Node × Node))
  | 0 => fail
  | fuel + 1 => do
    match ← peek with
    | .key =>
      skip
      let stops := [.key, .value, .blockEnd]
      let key ← p.nodeUnless stops true true
      let value ← p.valueAfter stops true true
      return (key, value) :: (← blockEntries fuel)
    | .blockEnd =>
      skip
      return []
    | _ => fail

/-- Passes the comma before an entry that is not the first one. -/
def separator (first : Bool) : Read Unit := do
  if !first then expect .flowEntry

/-- A mapping of one pair inside a flow sequence, behind the token of its key. -/
def pair : Read Node := do
  let t ← peek
  let key ←
    if t == .value || t == .flowEntry || t == .flowSequenceEnd then do
      skip
      pure .empty
    else p.node false false
  let value ← p.valueAfter [.flowEntry, .flowSequenceEnd] false false
  return .mapping [] [(key, value)]

def flowItems (first : Bool) : Nat → Read (List Node)
  | 0 => fail
  | fuel + 1 => do
    if (← peek) == .flowSequenceEnd then
      skip
      return []
    separator first
    match ← peek with
    | .flowSequenceEnd =>
      skip
      return []
    | .key =>
      skip
      let item ← p.pair
      return item :: (← flowItems false fuel)
    | _ =>
      let item ← p.node false false
      return item :: (← flowItems false fuel)

def flowEntries (first : Bool) : Nat → Read (List (Node × Node))
  | 0 => fail
  | fuel + 1 => do
    if (← peek) == .flowMappingEnd then
      skip
      return []
    separator first
    match ← peek with
    | .flowMappingEnd =>
      skip
      return []
    | .key =>
      skip
      let key ← p.nodeUnless [.value, .flowEntry, .flowMappingEnd] false false
      let value ← p.valueAfter [.flowEntry, .flowMappingEnd] false false
      return (key, value) :: (← flowEntries false fuel)
    | _ =>
      let key ← p.node false false
      return (key, .empty) :: (← flowEntries false fuel)

/-- A node. -/
def nodeFrom (block indentless : Bool) : Read Node := do
  if let .aliased name := ← peek then
    skip
    match (← get).anchors.lookup name with
    | some target? => return .aliased name target?
    | none => fail
  let (a?, t?) ← properties 3 none none
  let tag := t?.getD []
  match ← peek with
  | .blockEntry =>
    if indentless then anchored a? do return .sequence tag (← p.indentlessItems p.fuel)
    else bare a? t?
  | .scalar style text =>
    skip
    anchored a? (return .scalar tag style (Text.ofChars text))
  | .flowSequenceStart =>
    skip
    anchored a? do return .sequence tag (← p.flowItems true p.fuel)
  | .flowMappingStart =>
    skip
    anchored a? do return .mapping tag (← p.flowEntries true p.fuel)
  | .blockSequenceStart =>
    if block then
      skip
      anchored a? do return .sequence tag (← p.blockItems p.fuel)
    else bare a? t?
  | .blockMappingStart =>
    if block then
      skip
      anchored a? do return .mapping tag (← p.blockEntries p.fuel)
    else bare a? t?
  | _ => bare a? t?
where
  /-- An anchor or a tag alone stands for an empty scalar. -/
  bare (a? : Option (List Char)) (t? : Option Text) : Read Node := do
    if a?.isSome || t?.isSome then anchored a? (return .scalar (t?.getD []) .plain []) else fail

end Nested

/-- The parsers of nodes that nest at most `depth` deep. -/
def nested (fuel : Nat) : Nat → Nested
  | 0 => { fuel, node := fun _ _ => fail }
  | depth + 1 =>
    { fuel, node := fun block indentless r => (nested fuel depth).nodeFrom block indentless r }

def defaultHandles : List (List Char × Text) :=
  [("!".toList, "!"), ("!!".toList, "tag:yaml.org,2002:")]

/-- The directives before a document; `version` says whether one gave the version. -/
def directives (version : Bool) : Nat → Read Unit
  | 0 => fail
  | fuel + 1 => do
    match ← peek with
    | .versionDirective major minor =>
      if version || major != 1 || minor != 1 then fail
      skip
      directives true fuel
    | .tagDirective handle expansion =>
      let r ← get
      if (r.handles.lookup handle).isSome then fail
      set { r with handles := (handle, expansion) :: r.handles }
      skip
      directives version fuel
    | _ => return

/-- The first document of the stream. -/
def document : Read (Option Node) := do
  let p := nested (← get).tokens.length ((← get).tokens.length + 1)
  let first ← peek
  if first == .streamEnd then return none
  let explicit := match first with
    | .versionDirective .. | .tagDirective .. | .documentStart => true
    | _ => false
  if explicit then
    directives false (← get).tokens.length
    expect .documentStart
  modify fun r => { r with handles := r.handles ++ defaultHandles }
  let empty := match ← peek with
    | .documentStart | .documentEnd | .streamEnd | .versionDirective .. | .tagDirective .. => true
    | _ => false
  let n ← if explicit && empty then pure .empty else p.nodeFrom true false
  discard peek
  return some n

end Read

/-- The first document of a stream, if it has one; none when the stream is malformed. -/
def document? (source : Text) : Option (Option Node) :=
  (Read.document.run { tokens := tokens (if source.isEmpty then "\n" else source) }).map (·.1)

end LiteralAudit.Yaml
