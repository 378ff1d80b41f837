import LiteralAudit.Unicode.CharSet

/-!
# Regular expressions

The expressions that detection rules, whitelists and globs are written in: sets of characters,
places (`Place`), groups, sequences, choices and repetitions. A choice prefers its left side, and a
greedy repetition prefers one more turn to stopping; a lazy one prefers stopping.
-/

namespace LiteralAudit

/-- A condition on a place between two characters. -/
inductive Place where
  | textStart
  | textEnd
  | lineStart
  | lineEnd
  | wordBoundary
  | noWordBoundary
  deriving Repr, DecidableEq, BEq, Inhabited

/-- The characters of words, as word boundaries see them: ASCII letters, digits and `_`. -/
def Place.isWordChar (c : Char) : Bool := c.isAlphanum || c == '_'

/-- Whether a condition holds between `before` and `after`; there is no character before the start
of the text and none after its end. -/
def Place.holds (before after : Option Char) : Place → Bool
  | textStart => before.isNone
  | textEnd => after.isNone
  | lineStart => before.all (· == '\n')
  | lineEnd => after.all (· == '\n')
  | wordBoundary => before.any isWordChar != after.any isWordChar
  | noWordBoundary => before.any isWordChar == after.any isWordChar

/-- A regular expression. -/
inductive Regex where
  /-- Matches the empty text everywhere. -/
  | empty
  /-- Matches one character of the set. -/
  | chars (set : CharSet)
  /-- Matches the empty text at a place. -/
  | place (p : Place)
  /-- Matches as its body does, and remembers what the body matched as group `n`. -/
  | group (n : Nat) (body : Regex)
  | seq (a b : Regex)
  | alt (a b : Regex)
  /-- Between `least` and `most` turns of the body; without `most`, any number from `least` on. -/
  | rep (least : Nat) (most : Option Nat) (greedy : Bool) (body : Regex)
  deriving Repr, Inhabited

namespace Regex

/-- One character. -/
def char (c : Char) : Regex := .chars [(c.toNat, c.toNat)]

/-- The items one after the other. -/
def seqAll : List Regex → Regex
  | [] => .empty
  | [r] => r
  | r :: rs => .seq r (seqAll rs)

/-- A choice among the items, earlier ones preferred. -/
def altAll : List Regex → Regex
  | [] => .empty
  | [r] => r
  | r :: rs => .alt r (altAll rs)

/-- Whether the turns of nested repetitions multiply to at most `budget`. -/
def repeatsWithin (budget : Nat) : Regex → Bool
  | .empty | .chars _ | .place _ => true
  | .group _ r => repeatsWithin budget r
  | .seq a b | .alt a b => repeatsWithin budget a && repeatsWithin budget b
  | .rep 0 (some 1) _ r | .rep 0 none _ r | .rep 1 none _ r => repeatsWithin budget r
  | .rep _ (some 0) _ _ => true
  | .rep least most _ r =>
    let turns := most.getD least
    turns ≤ budget && repeatsWithin (if turns == 0 then budget else budget / turns) r

end Regex

end LiteralAudit

/-!
## The automaton of an expression

Each place where an expression reads a character is a *position*. Between two positions there is a
way through the expression that reads nothing; it may pass conditions on the place it is at and
borders of groups. `Core.first` lists the ways from the start of an expression to the positions it
can read first, and `Core.follow` the ways from each position to the ones that can be read next,
the preferred way first. A way that reaches the end without reading has no target yet (`skip`).

A repeated body that matches the empty text ends the repetition: after a turn that has read
something, only the ways that read something more start another turn.
-/

namespace LiteralAudit.Regex

/-- An expression whose repetitions are unfolded to options and loops and whose reading places are
numbered. -/
inductive Core where
  | empty
  | read (pos : Nat) (set : CharSet)
  | place (p : Place)
  | group (n : Nat) (body : Core)
  | seq (a b : Core)
  | alt (a b : Core)
  /-- The body or nothing. -/
  | opt (greedy : Bool) (body : Core)
  /-- One or more turns of the body. -/
  | loop (greedy : Bool) (body : Core)
  deriving Inhabited

namespace Core

/-- `n` results of a numbering action, from left to right. -/
def copies (act : StateM Nat Core) : Nat → StateM Nat (List Core)
  | 0 => pure []
  | n + 1 => do
    let c ← act
    let cs ← copies act n
    pure (c :: cs)

/-- The turns of a body that are optional: each one only after the one before it. -/
def optional (greedy : Bool) : List Core → Core
  | [] => .empty
  | [c] => .opt greedy c
  | c :: cs => .opt greedy (.seq c (optional greedy cs))

/-- The turns of a body one after the other, then `last`. -/
def chain (last : Core) : List Core → Core
  | [] => last
  | c :: cs => .seq c (chain last cs)

/-- A repetition unfolded; `act` makes one turn of the body. -/
def unfold (least : Nat) (most : Option Nat) (greedy : Bool) (act : StateM Nat Core) :
    StateM Nat Core :=
  match most with
  | none => do
    let turns ← copies act (least - 1)
    let last ← act
    let body := Core.loop greedy last
    pure (if least == 0 then .opt greedy body else chain body turns)
  | some most => do
    let turns ← copies act least
    let more ← copies act (most - least)
    match turns.reverse, more with
    | [], more => pure (optional greedy more)
    | last :: before, [] => pure (chain last before.reverse)
    | _, more => pure (chain (optional greedy more) turns)

/-- The numbered form of an expression; the state is the number of positions so far. -/
def ofRegex : Regex → StateM Nat Core
  | .empty => pure .empty
  | .chars set => fun n => (.read n set, n + 1)
  | .place p => pure (.place p)
  | .group n body => do
    let body ← ofRegex body
    pure (.group n body)
  | .seq a b => do
    let a ← ofRegex a
    let b ← ofRegex b
    pure (.seq a b)
  | .alt a b => do
    let a ← ofRegex a
    let b ← ofRegex b
    pure (.alt a b)
  | .rep least most greedy body => unfold least most greedy (ofRegex body)

end Core

/-- Where a way leads. -/
inductive Target where
  /-- To a position, which reads a character of the set. -/
  | read (pos : Nat) (set : CharSet)
  /-- To the end of the expression it goes through. -/
  | skip
  deriving Inhabited

/-- Whether two ways lead to the same place. -/
def Target.same : Target → Target → Bool
  | .read p _, .read q _ => p == q
  | .skip, .skip => true
  | _, _ => false

/-- A way through an expression that reads nothing: the conditions to be met, the borders of groups
passed (`2 n` opens group `n` and `2 n + 1` closes it), and where it leads. -/
structure Way where
  conditions : List Place := []
  borders : List Nat := []
  target : Target := .skip
  deriving Inhabited

namespace Way

def isSkip (w : Way) : Bool :=
  match w.target with
  | .skip => true
  | .read .. => false

/-- One way after another; a condition or border of both counts once. -/
def followedBy (w v : Way) : Way :=
  ⟨w.conditions ++ v.conditions.filter (!w.conditions.contains ·),
    w.borders ++ v.borders.filter (!w.borders.contains ·), v.target⟩

/-- Whether `v` can never be taken when `w` is tried first: it leads to the same place, under at
least the same conditions. -/
def covers (w v : Way) : Bool :=
  w.target.same v.target && w.conditions.all v.conditions.contains

/-- The ways without those that an earlier one covers. -/
def prune (ways : List Way) : List Way :=
  (ways.foldl (fun kept v => if kept.any (·.covers v) then kept else v :: kept) []).reverse

/-- The ways without those that reach the end and that an earlier one covers. -/
def pruneSkips (ways : List Way) : List Way :=
  let step : List Way × List Way → Way → List Way × List Way := fun (kept, skips) v =>
    if !v.isSkip then (v :: kept, skips)
    else if skips.any (·.covers v) then (kept, skips)
    else (v :: kept, v :: skips)
  (ways.foldl step ([], [])).1.reverse

/-- Ways that reach the end go on with `next`. -/
def andThen (ways next : List Way) : List Way :=
  let joined := ways.flatMap fun w => if w.isSkip then next.map w.followedBy else [w]
  match ways.filter isSkip with
  | [] => ways
  | [_] => joined
  | _ => prune joined

end Way

namespace Core

/-- The ways from the start of an expression to what it can read first, or through it; and, for the
ways on from its end, the ways from each position to what can be read after it. -/
def ways : Core → List Way × (List Way → List (Nat × List Way))
  | .empty => ([{}], fun _ => [])
  | .read pos set => ([{ target := .read pos set }], fun next => [(pos, next)])
  | .place p => ([{ conditions := [p] }], fun _ => [])
  | .group n body =>
    let (first, follow) := body.ways
    (first.map fun w =>
        { w with borders := 2 * n :: (if w.isSkip then w.borders ++ [2 * n + 1] else w.borders) },
      fun next => follow (next.map fun w => { w with borders := (2 * n + 1) :: w.borders }))
  | .seq a b =>
    let (firstA, followA) := a.ways
    let (firstB, followB) := b.ways
    (Way.andThen firstA firstB, fun next => followA (Way.andThen firstB next) ++ followB next)
  | .alt a b =>
    let (firstA, followA) := a.ways
    let (firstB, followB) := b.ways
    (Way.pruneSkips (firstA ++ firstB), fun next => followA next ++ followB next)
  | .opt greedy body =>
    let (first, follow) := body.ways
    (Way.pruneSkips (if greedy then first ++ [{}] else {} :: first), follow)
  | .loop greedy body =>
    let (first, follow) := body.ways
    let again := first.filter fun w => !w.isSkip
    (first, fun next => follow (if greedy then again ++ next else next ++ again))

/-- The ways from the start of an expression to what it can read first, or through it. -/
def first (c : Core) : List Way := c.ways.1

/-- The ways from each position to what can be read after it, when `next` are the ways on from the
end of the expression. -/
def follow (c : Core) (next : List Way) : List (Nat × List Way) := c.ways.2 next

end Core

/-- An expression ready to be matched: the ways from its start, and from each position. A way that
reaches the end of the whole expression completes a match. -/
structure Automaton where
  start : List Way
  next : Array (List Way)
  deriving Inhabited

/-- The automaton of an expression. -/
def automaton (r : Regex) : Automaton :=
  let (core, size) := (Core.ofRegex r).run 0
  let (first, follow) := core.ways
  let table := (follow [{}]).foldl (fun table (pos, ways) => table.setIfInBounds pos ways)
    (Array.replicate size [])
  { start := first, next := table }

end LiteralAudit.Regex
