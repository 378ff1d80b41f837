/-!
# Sets of characters

A `CharSet` is a list of ranges of code points, ends included. The tables of Unicode properties are
written as lines of hexadecimal ranges (`41-5A 61-7A AA`) and read by `CharSet.ofLines`.
-/

namespace LiteralAudit

/-- A set of characters, as ranges of code points with both ends included. -/
abbrev CharSet := List (Nat × Nat)

namespace CharSet

/-- Whether a code point lies in one of the ranges. -/
def mem (s : CharSet) (c : Nat) : Bool := s.any fun r => r.1 ≤ c && c ≤ r.2

/-- The greatest code point. -/
def maxCode : Nat := 0x10FFFF

/-- Every code point. -/
def all : CharSet := [(0, maxCode)]

/-- A number written in hexadecimal digits; other characters count as nothing. -/
def readHex (s : String) : Nat :=
  s.toList.foldl (fun n c =>
    if c.isDigit then n * 16 + (c.toNat - 48)
    else if 'A' ≤ c && c ≤ 'F' then n * 16 + (c.toNat - 55)
    else n) 0

/-- One range: `41-5A`, or `AA` for a single code point. -/
def readRange (s : String) : Nat × Nat :=
  match s.splitOn "-" with
  | [lo, hi] => (readHex lo, readHex hi)
  | _ => (readHex s, readHex s)

/-- The set written as lines of ranges with blanks between them. -/
def ofLines (lines : List String) : CharSet :=
  lines.flatMap fun line => (line.splitOn " ").map readRange

/-- Auxiliary to `normal`: the ranges are sorted by their lower ends. -/
def merge : CharSet → CharSet
  | [] => []
  | r :: rest =>
    match merge rest with
    | [] => [r]
    | s :: more => if s.1 ≤ r.2 + 1 then (r.1, max r.2 s.2) :: more else r :: s :: more

/-- The same set with its ranges in increasing order, apart from each other. -/
def normal (s : CharSet) : CharSet := merge (s.mergeSort fun a b => a.1 ≤ b.1)

/-- Auxiliary to `complement`: the ranges are normal and the code points below `lo` are done. -/
def complementFrom (lo : Nat) : CharSet → CharSet
  | [] => if lo ≤ maxCode then [(lo, maxCode)] else []
  | r :: rest =>
    if lo < r.1 then (lo, r.1 - 1) :: complementFrom (r.2 + 1) rest
    else complementFrom (r.2 + 1) rest

/-- The code points that are not in the set. -/
def complement (s : CharSet) : CharSet := complementFrom 0 s.normal

end CharSet

end LiteralAudit
