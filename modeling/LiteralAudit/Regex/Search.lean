import LiteralAudit.Regex.Automaton
import LiteralAudit.Regex.Reader

/-!
# Searching a text

`find?` looks for the leftmost match of an expression, and of those that start there for the one
that its preferences put first. The search goes through the text once and keeps, for each position
of the automaton that some attempt has reached, the most preferred such attempt (`Attempt`). An
attempt that completes a match drops all attempts behind it. `findAll` lists matches that do not
overlap, from left to right; an empty match is not reported where another match has just ended.
-/

namespace LiteralAudit

/-- An expression as it was written, and its automaton. -/
structure Pattern where
  source : Text
  automaton : Regex.Automaton
  deriving Inhabited

namespace Pattern

/-- The pattern that a text writes. -/
def compile (source : Text) : Except Regex.Error Pattern :=
  (Regex.read source).map fun r => ⟨source, r.automaton⟩

/-- A match under way or complete: where each border of a group was last passed, the latest first.
Borders 0 and 1 are the match's own. -/
structure Attempt where
  marks : List (Nat × Nat) := []
  deriving Inhabited

/-- Where a border was last passed. -/
def Attempt.mark? (a : Attempt) (border : Nat) : Option Nat := a.marks.lookup border

/-- The attempt after it has passed borders at one place. -/
def Attempt.pass (a : Attempt) (place : Nat) (borders : List Nat) : Attempt :=
  ⟨borders.foldl (fun marks b => (b, place) :: marks) a.marks⟩

/-- An attempt that waits at a position for a character of the set. -/
structure Waiting where
  pos : Nat
  set : CharSet
  attempt : Attempt
  deriving Inhabited

/-- The attempts that wait at a place for the next character, the least preferred first. -/
structure Standing where
  waiting : List Waiting := []
  /-- For each position, the number behind that of the last place at which an attempt came to it. -/
  reached : Array Nat
  deriving Inhabited

/-- Whether an attempt waits at a position already. -/
def Standing.isReached (s : Standing) (place pos : Nat) : Bool := s.reached.getD pos 0 == place + 1

/-- One more attempt waits, behind the others. -/
def Standing.wait (s : Standing) (place : Nat) (w : Waiting) : Standing :=
  ⟨w :: s.waiting, s.reached.setIfInBounds w.pos (place + 1)⟩

/-- The ways that attempts can go at a place, in order of preference, sorted into waiting attempts
and a match. The first way to complete a match ends the list. -/
def settle (place : Nat) (before after : Option Char) :
    Standing → List (Regex.Way × Attempt) → Standing × Option Attempt
  | s, [] => (s, none)
  | s, (way, attempt) :: rest =>
    if way.conditions.all (·.holds before after) then
      match way.target with
      | .skip => (s, some (attempt.pass place (way.borders ++ [1])))
      | .read pos set =>
        if s.isReached place pos then settle place before after s rest
        else
          let w : Waiting := ⟨pos, set, attempt.pass place way.borders⟩
          settle place before after (s.wait place w) rest
    else settle place before after s rest

/-- The ways open to attempts once `c` has been read. -/
def advance (m : Regex.Automaton) (c : Char) (waiting : List Waiting) :
    List (Regex.Way × Attempt) :=
  waiting.flatMap fun w =>
    if w.set.mem c.toNat then (m.next.getD w.pos []).map (·, w.attempt) else []

/-- The ways on which a new attempt can start; past the start of the text, those that demand it are
of no use. -/
def starts (m : Regex.Automaton) (before : Option Char) : List Regex.Way :=
  if before.isNone then m.start
  else m.start.filter fun w => !w.conditions.contains .textStart

/-- The search from a place on. `reached` is as in `Standing`, `ways` are open to the attempts under way, `fresh` to a new attempt
past the start of the text, `skip` bytes of the text belong to the character before, and `best` is
the match found so far. -/
def scan (m : Regex.Automaton) (fresh : List Regex.Way) (place : Nat) (before : Option Char)
    (reached : Array Nat) (ways : List (Regex.Way × Attempt)) (best : Option Attempt) :
    Nat → Text → Option Attempt
  | _, [] =>
    match settle place before none { reached } ways with
    | (_, some done) => some done
    | (_, none) => best
  | skip + 1, _ :: rest => scan m fresh place before reached ways best skip rest
  | 0, b :: rest =>
    let rune := Rune.first b rest
    let (⟨waiting, reached⟩, done) := settle place before (some rune.char) { reached } ways
    let best := done <|> best
    let ways := advance m rune.char waiting.reverse
    let place := place + rune.width
    let ways := if best.isNone then
        ways ++ fresh.map (·, (⟨[(0, place)]⟩ : Attempt))
      else ways
    if ways.isEmpty then best
    else scan m fresh place (some rune.char) reached ways best (rune.width - 1) rest

/-- The leftmost match in `t`, which starts at byte `place` of the text searched, after the
character `before`. -/
def searchFrom (m : Regex.Automaton) (place : Nat) (before : Option Char) (t : Text) :
    Option Attempt :=
  let opening := (starts m before).map (·, (⟨[(0, place)]⟩ : Attempt))
  if opening.isEmpty then none
  else scan m (starts m (some ' ')) place before (Array.replicate m.next.size 0) opening none 0 t

/-- A match: where it starts and ends, and all its marks. -/
structure Match where
  start : Nat
  stop : Nat
  attempt : Attempt
  deriving Inhabited

/-- A complete attempt as a match. -/
def Match.ofAttempt (a : Attempt) : Match :=
  ⟨(a.mark? 0).getD 0, (a.mark? 1).getD 0, a⟩

/-- The bytes from `i` up to `j`. -/
def slice (t : Text) (i j : Nat) : Text := (t.drop i).take (j - i)

/-- The text of the match. -/
def Match.text (m : Match) (t : Text) : Text := slice t m.start m.stop

/-- What group `n` matched, if it took part in the match. -/
def Match.group? (m : Match) (t : Text) (n : Nat) : Option Text :=
  match m.attempt.mark? (2 * n), m.attempt.mark? (2 * n + 1) with
  | some i, some j => some (slice t i j)
  | _, _ => none

/-- The leftmost match in a text. -/
def find? (p : Pattern) (t : Text) : Option Match :=
  (searchFrom p.automaton 0 none t).map .ofAttempt

/-- Whether the pattern matches somewhere in the text. -/
def matchesIn (p : Pattern) (t : Text) : Bool := (p.find? t).isSome

/-- The character at the end of a text, as conditions on places see it: U+FFFD stands for every
character beyond ASCII, none of which is part of a word or ends a line. -/
def lastChar? (t : Text) : Option Char :=
  t.getLast?.map fun b => if b < 0x80 then Char.ofNat b.toNat else Rune.replacement

/-- Auxiliary to `findAll`: the search goes on in `t`, at byte `place` after `before`; `lastStop` is
where the last match ended. -/
def findAllFrom (m : Regex.Automaton) :
    Nat → Nat → Option Char → Option Nat → Text → List Match
  | 0, _, _, _, _ => []
  | fuel + 1, place, before, lastStop, t =>
    match searchFrom m place before t with
    | none => []
    | some a =>
      let found := Match.ofAttempt a
      if found.stop == place then
        let here := if lastStop == some found.start then [] else [found]
        match t with
        | [] => here
        | b :: rest =>
          let rune := Rune.first b rest
          here ++ findAllFrom m fuel (place + rune.width) (some rune.char) (some found.stop)
            (t.drop rune.width)
      else
        let passed := t.take (found.stop - place)
        found :: findAllFrom m fuel found.stop (lastChar? passed) (some found.stop)
          (t.drop (found.stop - place))

/-- The matches in a text that do not overlap, from left to right. -/
def findAll (p : Pattern) (t : Text) : List Match :=
  findAllFrom p.automaton (t.length + 2) 0 none none t

end Pattern

end LiteralAudit
