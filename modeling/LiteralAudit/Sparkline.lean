import LiteralAudit.Number.Integer

/-!
# Sparklines

The course of a number over several runs, drawn with bars of eight heights on one line, with the first
and the last number behind them.
-/

namespace LiteralAudit.Sparkline

/-- The bars, the lowest first. -/
def bars : List String := ["▁", "▂", "▃", "▄", "▅", "▆", "▇", "█"]

/-- The index of the bar for a value between `lo` and `hi`, in 64-bit arithmetic: for values more than
an eighth of its range apart it may be the index of none. -/
def barIndex (lo hi v : Int) : Int :=
  if hi == lo then bars.length / 2
  else
    let height := Number.wrap64 (Number.wrap64 (v - lo) * (bars.length - 1))
    Number.wrap64 (Int.tdiv height (Number.wrap64 (hi - lo)))

/-- The bar for a value, if there is one. -/
def bar? (lo hi v : Int) : Option Text :=
  let i := barIndex lo hi v
  if i < 0 then none else (bars[i.toNat]?).map Text.ofString

/-- The sparkline of a list of values; empty for no values, and none when a value has no bar. -/
def render? (values : List Int) : Option Text :=
  match values with
  | [] => some []
  | first :: rest =>
    let lo := rest.foldl min first
    let hi := rest.foldl max first
    let last := rest.getLast?.getD first
    (values.mapM (bar? lo hi)).map fun drawn =>
      drawn.flatten ++ " [" ++ Text.ofInt first ++ "→" ++ Text.ofInt last ++ "]"

/-- The sign for the direction of a trend: down is better. -/
def indicator (direction : Text) : Text :=
  if direction == "improving" then "↓"
  else if direction == "degrading" then "↑"
  else "→"

end LiteralAudit.Sparkline
