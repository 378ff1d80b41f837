import LiteralAudit.Literal.Python.Lexer
import LiteralAudit.Proofs.Text.LineEnds
import Mathlib

/-!
# The course of the lexer

What a step does is told by the **head** of what is left (`step_eq`). `opening?` tells the **string that
starts** a text, and `step_eq_readOpening` that a step over it reads its body. Every other step that
succeeds is a **move** (`move_of_step`). Every step leaves a suffix of what it found (`step_suffix`), so
that the lexer is through after as many steps as the source has bytes. The **states** of a run are those
from which a step was tried.
-/

namespace LiteralAudit.Python

open Text (lf)

/-- What a byte starts. -/
inductive Head where
  | lineBreak
  | blank
  | comment
  | continuation
  | quote
  | name
  | number
  | bracket
  | closingBracket
  | op
  deriving Repr, DecidableEq

/-- What `b` starts where `rest` follows it. -/
def head (b : UInt8) (rest : Text) : Head :=
  if b == '\n' then .lineBreak
  else if b == ' ' || b == '\t' || b == '\r' || b == 12 then .blank
  else if b == '#' then .comment
  else if b == '\\' then .continuation
  else if isQuote b then .quote
  else if startsName b then .name
  else if Text.isDigit b || (b == '.' && rest.head?.any Text.isDigit) then .number
  else if b == '(' || b == '[' || b == '\x7b' then .bracket
  else if b == ')' || b == ']' || b == '\x7d' then .closingBracket
  else .op

/-- A string at its first quote: the letters before the quote, and all that follows it. -/
structure Opening where
  front : Text
  quote : UInt8
  rest : Text
  deriving Repr, DecidableEq

namespace Opening

def raw (o : Opening) : Bool := o.front.any fun b => b == 'r' || b == 'R'

def triple (o : Opening) : Bool := Text.startsWith o.rest [o.quote, o.quote]

/-- What follows the opening quotes. -/
def body (o : Opening) : Text := if o.triple then o.rest.drop 2 else o.rest

end Opening

/-- The string that starts a text, if one does. -/
def opening? : Text → Option Opening
  | [] => none
  | b :: rest =>
    if isQuote b then some ⟨[], b, rest⟩
    else if startsName b then
      match (b :: rest).dropWhile continuesName with
      | quote :: after =>
        let front := (b :: rest).takeWhile continuesName
        if isQuote quote && isStringFront front then some ⟨front, quote, after⟩ else none
      | [] => none
    else none

namespace Lexer

/-- The step over a string. -/
def readOpening (lx : Lexer) (o : Opening) : Except ParseError Lexer :=
  match stringBody? o.raw o.triple o.quote [] 0 o.body with
  | none => .error (Fault.unterminatedString.at lx.line)
  | some (done, breaks, rest) =>
    .ok ({ lx with line := lx.line + breaks, rest := rest }.literal lx.line false done.reverse)

/-- The states of a run from which a step was tried. -/
def states : Nat → Lexer → List Lexer
  | 0, _ => []
  | fuel + 1, lx =>
    match lx.rest with
    | [] => []
    | b :: rest =>
      match lx.step b rest with
      | .error _ => [lx]
      | .ok next => lx :: next.states fuel

end Lexer

/-- The states in which the lexer stands before each token and blank of a source. -/
def states (source : Text) : List Lexer := Lexer.states (source.length + 1) { rest := source }

variable {lx next : Lexer} {b : UInt8} {rest : Text} {o : Opening}

/-! ## Heads -/

/-- A step, by what stands at the head. -/
theorem step_eq (lx : Lexer) (b : UInt8) (rest : Text) :
    lx.step b rest =
      match head b rest with
      | .lineBreak =>
        if lx.opened.isEmpty then
          (Lexer.endStatement { lx with rest := rest, line := lx.line + 1 }).map (·.push .newline [])
        else .ok { lx with rest := rest, line := lx.line + 1 }
      | .blank => .ok { lx with rest := rest }
      | .comment => .ok { lx with rest := rest.dropWhile (· != '\n') }
      | .continuation => lx.readContinuation
      | .quote => lx.readString []
      | .name => lx.readName
      | .number => .ok lx.readNumber
      | .bracket =>
        .ok (Lexer.push { lx with rest := rest, opened := ⟨b, lx.line⟩ :: lx.opened } .op [b])
      | .closingBracket =>
        match lx.opened with
        | top :: below =>
          if top.byte == opener b then
            .ok (Lexer.push { lx with rest := rest, opened := below } .op [b])
          else .error ((Fault.unmatched b).at lx.line)
        | [] => .error ((Fault.unmatched b).at lx.line)
      | .op => .ok lx.readOp := by
  unfold Lexer.step head
  cases b == '\n' with
  | true => rfl
  | false =>
  cases b == ' ' || b == '\t' || b == '\r' || b == 12 with
  | true => rfl
  | false =>
  cases b == '#' with
  | true => rfl
  | false =>
  cases b == '\\' with
  | true => rfl
  | false =>
  cases isQuote b with
  | true => rfl
  | false =>
  cases startsName b with
  | true => rfl
  | false =>
  cases Text.isDigit b || (b == '.' && rest.head?.any Text.isDigit) with
  | true => rfl
  | false =>
  cases b == '(' || b == '[' || b == '\x7b' with
  | true => rfl
  | false =>
  cases b == ')' || b == ']' || b == '\x7d' with
  | true => rfl
  | false => rfl

/-- What is known of the byte at the head of a line break, a string, a name, a number and an operator. -/
theorem head_spec (b : UInt8) (rest : Text) :
    match head b rest with
    | .lineBreak => (b == '\n') = true
    | .quote => isQuote b = true
    | .name => startsName b = true
    | .number => (Text.isDigit b || (b == '.' && rest.head?.any Text.isDigit)) = true
    | .bracket => (b == '(' || b == '[' || b == '\x7b') = true
    | .closingBracket => (b == ')' || b == ']' || b == '\x7d') = true
    | .op => (b == '(' || b == '[' || b == '\x7b') = false ∧ (b == ')' || b == ']' || b == '\x7d') = false
    | _ => True := by
  unfold head
  cases b == '\n' with
  | true => rfl
  | false =>
  cases b == ' ' || b == '\t' || b == '\r' || b == 12 with
  | true => trivial
  | false =>
  cases b == '#' with
  | true => trivial
  | false =>
  cases b == '\\' with
  | true => trivial
  | false =>
  cases isQuote b with
  | true => rfl
  | false =>
  cases startsName b with
  | true => rfl
  | false =>
  cases Text.isDigit b || (b == '.' && rest.head?.any Text.isDigit) with
  | true => rfl
  | false =>
  cases b == '(' || b == '[' || b == '\x7b' with
  | true => rfl
  | false =>
  cases b == ')' || b == ']' || b == '\x7d' with
  | true => rfl
  | false => exact ⟨rfl, rfl⟩

theorem isNumber_of_head (h : head b rest = .number) :
    (Text.isDigit b || (b == '.' && rest.head?.any Text.isDigit)) = true := by
  have hspec := head_spec b rest
  rwa [h] at hspec

theorem head_eq_lineBreak_iff : head b rest = .lineBreak ↔ b = lf := by
  constructor
  · intro h
    have hspec := head_spec b rest
    rw [h] at hspec
    exact beq_iff_eq.1 hspec
  · rintro rfl
    rfl

theorem isQuote_iff : isQuote b = true ↔ b = '"' ∨ b = '\'' := by
  simp [isQuote]

theorem head_eq_quote_iff : head b rest = .quote ↔ isQuote b = true := by
  constructor
  · intro h
    have hspec := head_spec b rest
    rwa [h] at hspec
  · intro h
    rcases isQuote_iff.1 h with rfl | rfl <;> rfl

theorem ne_of_startsName {c : UInt8} (h : startsName b = true) (hc : startsName c = false) :
    (b == c) = false := by
  rw [beq_eq_false_iff_ne]
  rintro rfl
  rw [h] at hc
  cases hc

theorem isQuote_of_startsName (h : startsName b = true) : isQuote b = false := by
  rw [isQuote, ne_of_startsName h (by decide), ne_of_startsName h (by decide)]
  rfl

theorem head_eq_name_iff : head b rest = .name ↔ startsName b = true := by
  constructor
  · intro h
    have hspec := head_spec b rest
    rwa [h] at hspec
  · intro h
    have hne (c : UInt8) (hc : startsName c = false) := ne_of_startsName h hc
    simp only [head, hne '\n' (by decide), hne ' ' (by decide), hne '\t' (by decide),
      hne '\r' (by decide), hne 12 (by decide), hne '#' (by decide), hne '\\' (by decide),
      isQuote_of_startsName h, h, Bool.or_self, Bool.false_eq_true, if_false, if_true]

/-! ## The step over a string -/

theorem readString_eq (hrest : lx.rest = o.quote :: o.rest) : lx.readString o.front = lx.readOpening o := by
  rw [Lexer.readString, hrest]
  rfl

theorem opening?_of_isQuote (h : isQuote b = true) : opening? (b :: rest) = some ⟨[], b, rest⟩ :=
  if_pos h

/-- The string that starts with a name: the name is a string front, and a quote follows. -/
theorem opening?_eq_some_of_startsName (h : startsName b = true) :
    opening? (b :: rest) = some o ↔
      (b :: rest).takeWhile continuesName = o.front ∧ isStringFront o.front = true ∧
      isQuote o.quote = true ∧ (b :: rest).dropWhile continuesName = o.quote :: o.rest := by
  rw [opening?, isQuote_of_startsName h, h]
  generalize (b :: rest).takeWhile continuesName = front
  obtain ⟨front', quote', rest'⟩ := o
  cases (b :: rest).dropWhile continuesName with
  | nil => simp
  | cons quote after =>
    simp only [Bool.false_eq_true, if_false, if_true, Option.ite_none_right_eq_some, Bool.and_eq_true,
      Option.some.injEq, Opening.mk.injEq, List.cons.injEq]
    constructor
    · rintro ⟨⟨hquote, hfront⟩, rfl, rfl, rfl⟩
      exact ⟨rfl, hfront, hquote, rfl, rfl⟩
    · rintro ⟨rfl, hfront, hquote, rfl, rfl⟩
      exact ⟨⟨hquote, hfront⟩, rfl, rfl, rfl⟩

theorem step_eq_readOpening (hrest : lx.rest = b :: rest) (h : opening? lx.rest = some o) :
    lx.step b rest = lx.readOpening o := by
  rw [hrest] at h
  cases hquote : isQuote b with
  | true =>
    rw [opening?_of_isQuote hquote, Option.some.injEq] at h
    subst h
    rw [step_eq, head_eq_quote_iff.2 hquote]
    exact readString_eq (o := ⟨[], b, rest⟩) hrest
  | false =>
    cases hname : startsName b with
    | false => simp [opening?, hquote, hname] at h
    | true =>
      obtain ⟨hfront, hstring, hq, hafter⟩ := (opening?_eq_some_of_startsName hname).1 h
      rw [step_eq, head_eq_name_iff.2 hname]
      simp only [Lexer.readName, hrest, hafter, hfront,
        List.head?_cons, Option.any_some, hq, hstring, Bool.and_self, if_true]
      rfl

/-- A name goes over no line break. -/
theorem continuesName_lf : continuesName lf = false := by decide

/-- The string at a text, and the letters in front of it. -/
theorem opening?_spec {t : Text} (h : opening? t = some o) :
    isQuote o.quote = true ∧ ∃ front, t = front ++ o.quote :: o.rest ∧ lf ∉ front := by
  cases t with
  | nil => cases h
  | cons b rest =>
    cases hquote : isQuote b with
    | true =>
      rw [opening?_of_isQuote hquote, Option.some.injEq] at h
      subst h
      exact ⟨hquote, [], rfl, List.not_mem_nil⟩
    | false =>
      cases hname : startsName b with
      | false => simp [opening?, hquote, hname] at h
      | true =>
        obtain ⟨-, -, hq, hafter⟩ := (opening?_eq_some_of_startsName hname).1 h
        refine ⟨hq, (b :: rest).takeWhile continuesName, ?_, fun hmem => ?_⟩
        · rw [← hafter, List.takeWhile_append_dropWhile]
        · have hlf := List.mem_takeWhile_imp hmem
          rw [continuesName_lf] at hlf
          cases hlf

/-- A name that starts no string is a token. -/
theorem readName_of_opening?_eq_none (hrest : lx.rest = b :: rest) (hname : startsName b = true)
    (h : opening? lx.rest = none) :
    lx.readName = .ok ({ lx with rest := lx.rest.dropWhile continuesName }.push .name
      (lx.rest.takeWhile continuesName)) := by
  rw [hrest] at h ⊢
  rw [Lexer.readName, hrest]
  refine if_neg fun hstring => ?_
  rw [Bool.and_eq_true] at hstring
  obtain ⟨hquoted, hfront⟩ := hstring
  cases hafter : (b :: rest).dropWhile continuesName with
  | nil => simp [hafter] at hquoted
  | cons quote after =>
    rw [hafter] at hquoted
    have hsome := (opening?_eq_some_of_startsName (o := ⟨_, quote, after⟩) hname).2
      ⟨rfl, hfront, hquoted, hafter⟩
    rw [h] at hsome
    cases hsome

/-! ## Moves -/

namespace Lexer

/-- What a step that succeeds may come to where no string starts, by what `b` starts there. -/
inductive Move (lx : Lexer) (b : UInt8) (rest : Text) : Head → Lexer → Prop
  | lineEnd (outside : lx.opened = []) (checked : checkLine lx.statement.reverse = .ok ()) :
      Move lx b rest .lineBreak
        (push { lx with rest := rest, line := lx.line + 1, statement := [] } .newline [])
  | lineBreak (inside : lx.opened ≠ []) :
      Move lx b rest .lineBreak { lx with rest := rest, line := lx.line + 1 }
  | blank : Move lx b rest .blank { lx with rest := rest }
  | comment : Move lx b rest .comment { lx with rest := rest.dropWhile (· != '\n') }
  | continuation {before after : Text} (split : rest = before ++ lf :: after)
      (carriage : before = [] ∨ before = [('\r' : UInt8)]) :
      Move lx b rest .continuation { lx with rest := after, line := lx.line + 1 }
  | name :
      Move lx b rest .name (push { lx with rest := lx.rest.dropWhile continuesName } .name
        (lx.rest.takeWhile continuesName))
  | number : Move lx b rest .number lx.readNumber
  | bracket :
      Move lx b rest .bracket (push { lx with rest := rest, opened := ⟨b, lx.line⟩ :: lx.opened } .op [b])
  | closingBracket {top : Bracket} {below : List Bracket} (opened : lx.opened = top :: below)
      (closes : top.byte = opener b) :
      Move lx b rest .closingBracket (push { lx with rest := rest, opened := below } .op [b])
  | op {more after : Text} (split : rest = more ++ after) (long : more = [] ∨ b :: more ∈ longOps) :
      Move lx b rest .op (push { lx with rest := after } .op (b :: more))

/-- The check at the end of a logical line, which passes where there is no token. -/
theorem endStatement_eq (lx : Lexer) :
    lx.endStatement = (checkLine lx.statement.reverse).map fun _ => { lx with statement := [] } := by
  rw [endStatement.eq_def]
  split
  · next hstatement =>
    rw [hstatement]
    obtain ⟨rest, line, opened, recent, statement, literals⟩ := lx
    cases hstatement
    rfl
  · rfl

/-- A string that is read is a literal of its own. -/
theorem exists_of_readOpening (h : lx.readOpening o = .ok next) :
    ∃ done breaks after, stringBody? o.raw o.triple o.quote [] 0 o.body = some (done, breaks, after) ∧
      next = { lx with line := lx.line + breaks, rest := after }.literal lx.line false done.reverse := by
  rw [readOpening] at h
  cases hbody : stringBody? o.raw o.triple o.quote [] 0 o.body with
  | none =>
    rw [hbody] at h
    cases h
  | some found =>
    rw [hbody] at h
    cases h
    exact ⟨_, _, _, rfl, rfl⟩

/-- A continuation takes the line break that follows the backslash, with a carriage return before it. -/
theorem move_of_readContinuation (hrest : lx.rest = b :: rest) (h : lx.readContinuation = .ok next) :
    lx.Move b rest .continuation next := by
  have hcarriage : ∃ before : Text, (before = [] ∨ before = [('\r' : UInt8)]) ∧
      rest = before ++ (if rest.head? == some ('\r' : UInt8) then rest.drop 1 else rest) := by
    split_ifs with hhead
    · obtain ⟨more, rfl⟩ := List.head?_eq_some_iff.1 (eq_of_beq hhead)
      exact ⟨[('\r' : UInt8)], .inr rfl, rfl⟩
    · exact ⟨[], .inl rfl, rfl⟩
  obtain ⟨before, hbefore, hsplit⟩ := hcarriage
  rw [readContinuation, hrest] at h
  simp only [List.drop_succ_cons, List.drop_zero] at h
  generalize (if rest.head? == some ('\r' : UInt8) then rest.drop 1 else rest) = after at h hsplit
  cases after with
  | nil => cases h
  | cons c after =>
    simp only at h
    split_ifs at h with hbreak
    cases h
    rw [eq_of_beq hbreak] at hsplit
    exact .continuation hsplit hbefore

theorem move_readOp (hrest : lx.rest = b :: rest) : lx.Move b rest .op lx.readOp := by
  rw [readOp, hrest]
  split_ifs with hlong
  · have hsplit : rest = rest.take 1 ++ rest.drop 1 := (List.take_append_drop 1 rest).symm
    exact .op hsplit (.inr (List.contains_iff_mem.1 hlong))
  · exact .op (List.nil_append rest).symm (.inl rfl)

end Lexer

/-- A step over something other than a string is one of the moves. -/
theorem move_of_step (hrest : lx.rest = b :: rest) (hopening : opening? lx.rest = none)
    (h : lx.step b rest = .ok next) : lx.Move b rest (head b rest) next := by
  rw [step_eq] at h
  cases hhead : head b rest <;> rw [hhead] at h
  case lineBreak =>
    simp only at h
    split_ifs at h with houtside
    · rw [Lexer.endStatement_eq] at h
      cases hchecked : checkLine lx.statement.reverse with
      | error e =>
        rw [hchecked] at h
        cases h
      | ok u =>
        rw [hchecked] at h
        cases h
        exact .lineEnd (List.isEmpty_iff.1 houtside) hchecked
    · cases h
      exact .lineBreak (mt List.isEmpty_iff.2 houtside)
  case blank =>
    cases h
    exact .blank
  case comment =>
    cases h
    exact .comment
  case continuation => exact Lexer.move_of_readContinuation hrest h
  case quote =>
    rw [hrest, opening?_of_isQuote (head_eq_quote_iff.1 hhead)] at hopening
    cases hopening
  case name =>
    rw [readName_of_opening?_eq_none hrest (head_eq_name_iff.1 hhead) hopening] at h
    cases h
    exact .name
  case number =>
    cases h
    exact .number
  case bracket =>
    cases h
    exact .bracket
  case closingBracket =>
    cases hbrackets : lx.opened with
    | nil =>
      rw [hbrackets] at h
      cases h
    | cons top below =>
      rw [hbrackets] at h
      simp only at h
      split_ifs at h with hcloses
      cases h
      exact .closingBracket hbrackets (eq_of_beq hcloses)
  case op =>
    cases h
    exact Lexer.move_readOp hrest

/-! ## What is left after a step -/

theorem numberSpan_suffix (hex : Bool) (done t : Text) : (numberSpan hex done t).2 <:+ t := by
  induction t generalizing done with
  | nil => exact List.suffix_refl _
  | cons b rest ih =>
    rw [numberSpan]
    split_ifs
    · exact (ih (b :: done)).trans (List.suffix_cons b rest)
    · exact (ih (b :: done)).trans (List.suffix_cons b rest)
    · exact List.suffix_refl _

theorem stringBody?_suffix {raw triple : Bool} {quote : UInt8} {done : Text} {breaks : Nat} {t : Text}
    {found : Text × Nat × Text} (h : stringBody? raw triple quote done breaks t = some found) :
    found.2.2 <:+ t := by
  fun_induction stringBody? raw triple quote done breaks t with
  | case1 | case5 | case6 => cases h
  | case2 done breaks b rest =>
    cases h
    exact List.suffix_cons b rest
  | case3 done breaks b rest =>
    cases h
    exact (List.drop_suffix 2 rest).trans (List.suffix_cons b rest)
  | case4 done breaks b rest _ _ _ _ ih | case10 done breaks b rest _ _ _ _ ih =>
    exact (ih h).trans (List.suffix_cons b rest)
  | case7 done breaks b _ _ _ next rest _ _ ih | case8 done breaks b _ _ _ next rest _ _ _ ih
    | case9 done breaks b _ _ _ next rest _ _ _ ih =>
    exact (ih h).trans ((List.suffix_cons next rest).trans (List.suffix_cons b _))

namespace Lexer

@[simp] theorem rest_push (kind : Kind) (text : Text) : (lx.push kind text).rest = lx.rest := rfl

theorem readOpening_suffix (h : lx.readOpening o = .ok next) : next.rest <:+ o.rest := by
  obtain ⟨done, breaks, after, hbody, rfl⟩ := exists_of_readOpening h
  have hsuffix : o.body <:+ o.rest := by
    rw [Opening.body]
    split_ifs
    · exact List.drop_suffix 2 o.rest
    · exact List.suffix_refl _
  exact (stringBody?_suffix hbody).trans hsuffix

theorem readNumber_suffix (hrest : lx.rest = b :: rest)
    (hnumber : (Text.isDigit b || b == '.' && rest.head?.any Text.isDigit) = true) :
    lx.readNumber.rest <:+ rest := by
  -- The first byte of a number is one of its bytes, so that the number is not empty.
  have hfirst : (continuesName b || b == '.') = true := by
    rw [continuesName]
    cases hdigit : Text.isDigit b with
    | true => rw [Bool.or_true, Bool.true_or]
    | false =>
      rw [hdigit, Bool.false_or, Bool.and_eq_true] at hnumber
      rw [hnumber.1, Bool.or_true]
  have hspan : lx.readNumber.rest = (numberSpan (isHex lx.rest) [] lx.rest).2 := rfl
  rw [hspan, hrest, numberSpan, if_pos hfirst]
  exact numberSpan_suffix _ [b] rest

end Lexer

theorem opening?_suffix (h : opening? (b :: rest) = some o) : o.rest <:+ rest := by
  obtain ⟨-, front, hsplit, -⟩ := opening?_spec h
  cases front with
  | nil =>
    obtain ⟨-, rfl⟩ := List.cons.inj hsplit
    exact List.suffix_refl _
  | cons c front =>
    obtain ⟨-, rfl⟩ := List.cons.inj hsplit
    exact (List.suffix_cons o.quote o.rest).trans (List.suffix_append front _)

/-- Every step takes at least the byte it starts with. -/
theorem step_suffix (hrest : lx.rest = b :: rest) (h : lx.step b rest = .ok next) : next.rest <:+ rest := by
  cases hopening : opening? lx.rest with
  | some o =>
    rw [step_eq_readOpening hrest hopening] at h
    exact (Lexer.readOpening_suffix h).trans (opening?_suffix (hrest ▸ hopening))
  | none =>
    have hmove := move_of_step hrest hopening h
    generalize hhead : head b rest = k at hmove
    cases hmove with
    | lineEnd | lineBreak | blank | bracket | closingBracket => exact List.suffix_refl rest
    | comment => exact List.dropWhile_suffix _
    | @continuation before after hsplit =>
      rw [hsplit]
      exact (List.suffix_cons _ after).trans (List.suffix_append before _)
    | name =>
      have hcontinues : continuesName b = true := by
        rw [continuesName, head_eq_name_iff.1 hhead, Bool.true_or]
      rw [Lexer.rest_push, hrest, List.dropWhile_cons_of_pos hcontinues]
      exact List.dropWhile_suffix _
    | number => exact Lexer.readNumber_suffix hrest (isNumber_of_head hhead)
    | @op more after hsplit =>
      rw [hsplit]
      exact List.suffix_append more after

/-! ## Runs -/

namespace Lexer

theorem run_nil (hrest : lx.rest = []) (fuel : Nat) : lx.run fuel = .ok lx := by
  cases fuel with
  | zero => rfl
  | succ fuel => rw [run, hrest]

theorem run_cons (hrest : lx.rest = b :: rest) (fuel : Nat) :
    lx.run (fuel + 1) = (lx.step b rest).bind (run fuel) := by
  simp only [run, hrest]
  cases lx.step b rest with
  | error e => rfl
  | ok next => rfl

theorem states_nil (hrest : lx.rest = []) (fuel : Nat) : lx.states fuel = [] := by
  cases fuel with
  | zero => rfl
  | succ fuel => rw [states, hrest]

theorem states_of_error {e : ParseError} (hrest : lx.rest = b :: rest) (h : lx.step b rest = .error e)
    (fuel : Nat) : lx.states (fuel + 1) = [lx] := by
  simp only [states, hrest, h]

theorem states_of_ok (hrest : lx.rest = b :: rest) (h : lx.step b rest = .ok next) (fuel : Nat) :
    lx.states (fuel + 1) = lx :: next.states fuel := by
  simp only [states, hrest, h]

theorem exists_states (hrest : lx.rest = b :: rest) (fuel : Nat) :
    ∃ later, lx.states (fuel + 1) = lx :: later := by
  cases h : lx.step b rest with
  | error e => exact ⟨[], states_of_error hrest h fuel⟩
  | ok next => exact ⟨next.states fuel, states_of_ok hrest h fuel⟩

/-- What the end of a source makes of the last state. -/
def finish (lx : Lexer) : Except ParseError (List Literal) :=
  match lx.opened with
  | b :: _ => .error ((Fault.neverClosed b.byte).at b.line)
  | [] => lx.endStatement.map fun lx => lx.literals.reverse

end Lexer

theorem literals_eq (source : Text) :
    literals source = (Lexer.run (source.length + 1) { rest := source }).bind Lexer.finish := by
  rw [literals]
  cases Lexer.run (source.length + 1) { rest := source } with
  | error e => rfl
  | ok lx =>
    simp only [bind, Except.bind, Lexer.finish]
    cases lx.opened with
    | cons b below => rfl
    | nil =>
      cases lx.endStatement with
      | error e => rfl
      | ok lx => rfl

/-- A source is read when its last state is outside all brackets and its last statement passes the
checks. -/
theorem exists_last {source : Text} {ls : List Literal} (h : literals source = .ok ls) :
    ∃ last, Lexer.run (source.length + 1) { rest := source } = .ok last ∧ last.opened = [] ∧
      checkLine last.statement.reverse = .ok () ∧ ls = last.literals.reverse := by
  rw [literals_eq] at h
  cases hrun : Lexer.run (source.length + 1) { rest := source } with
  | error e =>
    rw [hrun] at h
    cases h
  | ok last =>
    rw [hrun] at h
    replace h : last.finish = .ok ls := h
    rw [Lexer.finish] at h
    cases hopened : last.opened with
    | cons b below =>
      rw [hopened] at h
      cases h
    | nil =>
      rw [hopened, Lexer.endStatement_eq] at h
      cases hchecked : checkLine last.statement.reverse with
      | error e =>
        rw [hchecked] at h
        cases h
      | ok u =>
        rw [hchecked] at h
        cases h
        exact ⟨last, rfl, hopened, hchecked, rfl⟩

end LiteralAudit.Python
