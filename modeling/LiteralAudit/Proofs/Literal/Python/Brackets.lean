import LiteralAudit.Proofs.Literal.Python.LineNumbers
import LiteralAudit.Proofs.Literal.Python.Walks
import Mathlib

/-!
# Brackets of a source that is read to its end

The **tokens** of a source are those that the lexer pushes on its way, and its **logical lines** those
that it hands to the statement checks; `pushes_of_step` ties both to the steps. When the source is read to
its end, its brackets are nested, every token's depth is the number of brackets open after it, and so it
is for each logical line alone, since these end outside all brackets. So every walk of the checks is
exact (`nested_of_literals`).
-/

namespace LiteralAudit.Python

open Text (lf)

variable {lx next last : Lexer} {b : UInt8} {rest : Text} {ts : List Token} {stack : List Token}

namespace Lexer

/-- A line break outside all brackets is next. -/
def atLineEnd (lx : Lexer) : Bool := lx.opened.isEmpty && lx.rest.head? == some lf

/-- The token that the step from `lx` to `next` pushes, if it pushes one. -/
def pushed (lx next : Lexer) : List Token :=
  if lx.atLineEnd then next.recent.take 1
  else next.statement.take (next.statement.length - lx.statement.length)

/-- The tokens that a run pushes. -/
def tokens : Nat → Lexer → List Token
  | 0, _ => []
  | fuel + 1, lx =>
    match lx.rest with
    | [] => []
    | b :: rest =>
      match lx.step b rest with
      | .error _ => []
      | .ok next => lx.pushed next ++ next.tokens fuel

/-- The logical lines of a run, empty ones among them; the last one ends with the source. -/
def lines : Nat → Lexer → List (List Token)
  | 0, _ => []
  | fuel + 1, lx =>
    match lx.rest with
    | [] => [lx.statement.reverse]
    | b :: rest =>
      match lx.step b rest with
      | .error _ => []
      | .ok next => (if lx.atLineEnd then [lx.statement.reverse] else []) ++ next.lines fuel

end Lexer

/-- The tokens of a source, with those that end logical lines. -/
def tokens (source : Text) : List Token := Lexer.tokens (source.length + 1) { rest := source }

/-- The logical lines that are handed to the statement checks: those with a token. -/
def checkedLines (source : Text) : List (List Token) :=
  (Lexer.lines (source.length + 1) { rest := source }).filter (!·.isEmpty)

/-! ## Steps -/

/-- The tokens are the open brackets. -/
def Shows (stack : List Token) (opened : List Bracket) : Prop :=
  List.Forall₂ (fun o b => o.kind = .op ∧ o.text = [b.byte]) stack opened

/-- What a step does to the brackets, the latest tokens and the statement, and which tokens it pushes. -/
inductive Lexer.Pushes (lx next : Lexer) : List Token → Prop
  | nothing (line : lx.atLineEnd = false) (opened : next.opened = lx.opened)
      (recent : next.recent = lx.recent) (statement : next.statement = lx.statement) : Pushes lx next []
  | token {t : Token} (line : lx.atLineEnd = false) (kind : t.kind ≠ .newline)
      (depth : t.depth = next.opened.length)
      (brackets : ∀ stack, Shows stack lx.opened →
        ∃ stack', openAfter stack [t] = some stack' ∧ Shows stack' next.opened)
      (recent : next.recent = (t :: lx.recent).take memory)
      (statement : next.statement = t :: lx.statement) : Pushes lx next [t]
  | lineEnd {t : Token} (line : lx.atLineEnd = true) (kind : t.kind = .newline) (depth : t.depth = 0)
      (opened : lx.opened = []) (opened' : next.opened = []) (checked : checkLine lx.statement.reverse = .ok ())
      (recent : next.recent = (t :: lx.recent).take memory) (statement : next.statement = []) :
      Pushes lx next [t]

namespace Lexer

theorem openAfter_of_not_isBracket {t : Token} (h : t.isBracket = false) (stack : List Token) :
    openAfter stack [t] = some stack := by
  rw [Token.isBracket, Bool.or_eq_false_iff] at h
  simp [openAfter, h.1, h.2]

/-- A step that pushes a token, where the brackets are as the token says. -/
theorem pushes_pushAt {mid : Lexer} {line : Nat} {kind : Kind} {text : Text}
    (hline : lx.atLineEnd = false) (hkind : kind ≠ .newline) (hrecent : mid.recent = lx.recent)
    (hstatement : mid.statement = lx.statement)
    (hbrackets : ∀ stack, Shows stack lx.opened →
      ∃ stack', openAfter stack [⟨kind, text, mid.opened.length, line⟩] = some stack' ∧
        Shows stack' mid.opened) :
    lx.Pushes (mid.pushAt line kind text) (lx.pushed (mid.pushAt line kind text)) := by
  have hnext : (mid.pushAt line kind text).statement =
      ⟨kind, text, mid.opened.length, line⟩ :: lx.statement := by
    rw [← hstatement]
    exact if_neg (by simpa using hkind)
  have hpushed : lx.pushed (mid.pushAt line kind text) = [⟨kind, text, mid.opened.length, line⟩] := by
    rw [pushed, hline, if_neg Bool.false_ne_true, hnext, List.length_cons, Nat.add_sub_cancel_left]
    rfl
  rw [hpushed]
  refine .token hline hkind rfl hbrackets ?_ hnext
  rw [← hrecent]
  rfl

/-- A step that pushes a token other than a bracket. -/
theorem pushes_plain {mid : Lexer} {line : Nat} {kind : Kind} {text : Text}
    (hline : lx.atLineEnd = false) (hkind : kind ≠ .newline) (hrecent : mid.recent = lx.recent)
    (hstatement : mid.statement = lx.statement) (hopened : mid.opened = lx.opened)
    (hplain : Token.isBracket ⟨kind, text, mid.opened.length, line⟩ = false) :
    lx.Pushes (mid.pushAt line kind text) (lx.pushed (mid.pushAt line kind text)) := by
  refine pushes_pushAt hline hkind hrecent hstatement fun stack hstack => ?_
  exact ⟨stack, openAfter_of_not_isBracket hplain stack, hopened ▸ hstack⟩

theorem pushes_literal {mid : Lexer} {line : Nat} {numeric : Bool} {value : Text}
    (hline : lx.atLineEnd = false) (hrecent : mid.recent = lx.recent)
    (hstatement : mid.statement = lx.statement) (hopened : mid.opened = lx.opened) :
    lx.Pushes (mid.literal line numeric value) (lx.pushed (mid.literal line numeric value)) := by
  have hkind : (if numeric then Kind.number else Kind.string) ≠ .newline ∧
      (if numeric then Kind.number else Kind.string) ≠ .op := by cases numeric <;> decide
  exact pushes_plain hline hkind.1 hrecent hstatement hopened (Token.not_isBracket_of_ne_op hkind.2)

theorem pushes_nothing (hline : lx.atLineEnd = false) (hopened : next.opened = lx.opened)
    (hrecent : next.recent = lx.recent) (hstatement : next.statement = lx.statement) :
    lx.Pushes next (lx.pushed next) := by
  have hpushed : lx.pushed next = [] := by
    rw [pushed, hline, if_neg Bool.false_ne_true, hstatement, Nat.sub_self, List.take_zero]
  rw [hpushed]
  exact .nothing hline hopened hrecent hstatement

end Lexer

/-- Which bytes are brackets, by what they start. -/
theorem brackets_of_head (b : UInt8) (rest : Text) :
    match head b rest with
    | .bracket => b = '(' ∨ b = '[' ∨ b = '\x7b'
    | .closingBracket => b = ')' ∨ b = ']' ∨ b = '\x7d'
    | .op => b ∉ ([('(' : UInt8), '[', '\x7b', ')', ']', '\x7d'] : Text)
    | _ => True := by
  have hspec := head_spec b rest
  cases hhead : head b rest <;> rw [hhead] at hspec
  case bracket => simpa [or_assoc] using hspec
  case closingBracket => simpa [or_assoc] using hspec
  case op =>
    simp only [Bool.or_eq_false_iff, beq_eq_false_iff_ne] at hspec
    simp [hspec]
  all_goals trivial

/-- Of one byte, the operators that are brackets. -/
theorem isBracket_op_iff {depth line : Nat} : Token.isBracket ⟨.op, [b], depth, line⟩ = true ↔
    b ∈ ([('(' : UInt8), '[', '\x7b', ')', ']', '\x7d'] : Text) := by
  have hspell : Text.ofString "(" = ['('] ∧ Text.ofString "[" = ['['] ∧ Text.ofString "\x7b" = ['\x7b'] ∧
      Text.ofString ")" = [')'] ∧ Text.ofString "]" = [']'] ∧ Text.ofString "\x7d" = ['\x7d'] := by decide
  simp [Token.isBracket, Token.opens, Token.closes, Token.isOp, hspell, or_assoc]

theorem length_text_of_isBracket {t : Token} (h : t.isBracket = true) : t.text.length = 1 := by
  simp only [Token.isBracket, Token.opens, Token.closes, Token.isOp, Bool.or_eq_true, Bool.and_eq_true,
    beq_iff_eq] at h
  rcases h with ((h | h) | h) | (h | h) | h <;> rw [h.2] <;> decide

theorem openAfter_of_opens {t : Token} (h : t.opens = true) (stack : List Token) :
    openAfter stack [t] = some (t :: stack) := by
  simp [openAfter, h]

theorem openAfter_of_closedBy {o t : Token} (h : o.closedBy t = true) (stack : List Token) :
    openAfter (o :: stack) [t] = some stack := by
  have hcloses := Token.closes_of_closedBy h
  have hopens : t.opens = false := by
    cases hopens : t.opens with
    | true =>
      rw [Token.closes_of_opens hopens] at hcloses
      cases hcloses
    | false => rfl
  simp [openAfter, hopens, hcloses, h]

namespace Lexer

theorem pushes_op (hline : lx.atLineEnd = false) (hhead : head b rest = .op) {more after : Text}
    (hlong : more = [] ∨ b :: more ∈ longOps) :
    lx.Pushes (push { lx with rest := after } .op (b :: more))
      (lx.pushed (push { lx with rest := after } .op (b :: more))) := by
  refine @pushes_plain lx { lx with rest := after } _ _ _ hline (by decide) rfl rfl rfl ?_
  refine Bool.eq_false_iff.2 fun hisBracket => ?_
  rcases hlong with rfl | hlong
  · have hbracket := brackets_of_head b rest
    rw [hhead] at hbracket
    exact hbracket (isBracket_op_iff.1 hisBracket)
  · have htwo : ∀ op ∈ longOps, op.length ≠ 1 := by decide
    exact htwo _ hlong (length_text_of_isBracket hisBracket)

theorem pushes_bracket (hline : lx.atLineEnd = false) (hhead : head b rest = .bracket) :
    lx.Pushes (push { lx with rest := rest, opened := ⟨b, lx.line⟩ :: lx.opened } .op [b])
      (lx.pushed (push { lx with rest := rest, opened := ⟨b, lx.line⟩ :: lx.opened } .op [b])) := by
  refine pushes_pushAt hline (by decide) rfl rfl fun stack hstack => ?_
  refine ⟨_, openAfter_of_opens ?_ stack, .cons ⟨rfl, rfl⟩ hstack⟩
  have hbracket := brackets_of_head b rest
  rw [hhead] at hbracket
  rcases hbracket with rfl | rfl | rfl <;> simp [Token.opens, Token.isOp] <;> decide

theorem pushes_closingBracket (hline : lx.atLineEnd = false) (hhead : head b rest = .closingBracket)
    {top : Bracket} {below : List Bracket} (hopened : lx.opened = top :: below)
    (htop : top.byte = opener b) :
    lx.Pushes (push { lx with rest := rest, opened := below } .op [b])
      (lx.pushed (push { lx with rest := rest, opened := below } .op [b])) := by
  refine pushes_pushAt hline (by decide) rfl rfl fun stack hstack => ?_
  rw [hopened] at hstack
  cases hstack with
  | @cons o _ stack _ ho hstack =>
    refine ⟨stack, openAfter_of_closedBy ?_ stack, hstack⟩
    have hbracket := brackets_of_head b rest
    rw [hhead] at hbracket
    rw [htop] at ho
    rcases hbracket with rfl | rfl | rfl
    all_goals
      simp only [Token.closedBy, Token.isOp, ho.1, ho.2]
      decide

theorem pushes_lineEnd (hline : lx.atLineEnd = true) (hopened : lx.opened = [])
    (hchecked : checkLine lx.statement.reverse = .ok ()) :
    lx.Pushes (push { lx with rest := rest, line := lx.line + 1, statement := [] } .newline [])
      (lx.pushed (push { lx with rest := rest, line := lx.line + 1, statement := [] } .newline [])) := by
  have hpushed : lx.pushed (push { lx with rest := rest, line := lx.line + 1, statement := [] } .newline []) =
      [⟨.newline, [], lx.opened.length, lx.line + 1⟩] := by
    rw [pushed, hline]
    rfl
  rw [hpushed]
  exact .lineEnd hline rfl (congrArg List.length hopened) hopened hopened hchecked rfl rfl

theorem atLineEnd_iff (hrest : lx.rest = b :: rest) :
    lx.atLineEnd = true ↔ lx.opened = [] ∧ head b rest = .lineBreak := by
  simp [atLineEnd, hrest, head_eq_lineBreak_iff]

theorem pushes_of_move {k : Head} (hrest : lx.rest = b :: rest) (hhead : head b rest = k)
    (h : lx.Move b rest k next) : lx.Pushes next (lx.pushed next) := by
  have hinside (hk : lx.opened ≠ [] ∨ k ≠ .lineBreak) : lx.atLineEnd = false := by
    refine Bool.eq_false_iff.2 fun hline => ?_
    obtain ⟨hopened, hbreak⟩ := (atLineEnd_iff hrest).1 hline
    exact hk.elim (· hopened) (· (hhead.symm.trans hbreak))
  cases h with
  | lineEnd houtside hchecked =>
    exact pushes_lineEnd ((atLineEnd_iff hrest).2 ⟨houtside, hhead⟩) houtside hchecked
  | lineBreak hopened => exact pushes_nothing (hinside (.inl hopened)) rfl rfl rfl
  | blank | comment | continuation => exact pushes_nothing (hinside (.inr (by decide))) rfl rfl rfl
  | name =>
    exact pushes_plain (hinside (.inr (by decide))) (by decide) rfl rfl rfl
      (Token.not_isBracket_of_name rfl)
  | number =>
    exact @pushes_literal lx { lx with rest := lx.readNumber.rest } lx.line true _
      (hinside (.inr (by decide))) rfl rfl rfl
  | bracket => exact pushes_bracket (hinside (.inr (by decide))) hhead
  | closingBracket hopened htop =>
    exact pushes_closingBracket (hinside (.inr (by decide))) hhead hopened htop
  | op _ hlong => exact pushes_op (hinside (.inr (by decide))) hhead hlong

/-- Every step pushes at most one token, and says with it what it does to the brackets; where it ends a
logical line, the line has passed its checks. -/
theorem pushes_of_step (hrest : lx.rest = b :: rest) (h : lx.step b rest = .ok next) :
    lx.Pushes next (lx.pushed next) := by
  cases hopening : opening? lx.rest with
  | some o =>
    rw [step_eq_readOpening hrest hopening] at h
    obtain ⟨done, breaks, after, -, rfl⟩ := exists_of_readOpening h
    refine pushes_literal (Bool.eq_false_iff.2 fun hline => ?_) rfl rfl rfl
    -- No string starts at a line break.
    obtain rfl := head_eq_lineBreak_iff.1 ((atLineEnd_iff hrest).1 hline).2
    rw [hrest] at hopening
    cases hopening
  | none => exact pushes_of_move hrest rfl (move_of_step hrest hopening h)

end Lexer

/-! ## Runs -/

/-- The tokens that were pushed on the way to a state are in order: each has its depth, the brackets that
they leave open are those of the state, and the current statement starts outside all brackets. -/
structure Ordered (lx : Lexer) (ts : List Token) : Prop where
  levelled : Levelled ts
  shows : ∃ stack, openAfter [] ts = some stack ∧ Shows stack lx.opened
  statement : ∃ before, ts = before ++ lx.statement.reverse ∧ openAfter [] before = some []

/-- A logical line that passes its checks, and whose brackets are its own. -/
structure LineInOrder (line : List Token) : Prop where
  nested : Nested line
  levelled : Levelled line
  checked : checkLine line = .ok ()

theorem slice_of_openAfter {before ts : List Token} (h : openAfter [] before = some []) :
    Slice (before ++ ts) ts := by
  have hbalance := length_openAfter h
  exact ⟨before, [], by simp, by simpa using hbalance.symm⟩

namespace Ordered

variable {us : List Token}

theorem step (h : Ordered lx ts) (hstep : lx.Pushes next us) : Ordered next (ts ++ us) := by
  obtain ⟨stack, hstack, hshows⟩ := h.shows
  obtain ⟨before, hbefore, hclosed⟩ := h.statement
  cases hstep with
  | nothing hline hopened hrecent hstatement =>
    rw [List.append_nil]
    exact ⟨h.levelled, ⟨stack, hstack, hopened ▸ hshows⟩, before, hstatement ▸ hbefore, hclosed⟩
  | @token t hline hkind hdepth hbrackets hrecent hstatement =>
    obtain ⟨stack', hstack', hshows'⟩ := hbrackets stack hshows
    have hafter := (openAfter_append hstack).trans hstack'
    refine ⟨h.levelled.concat ?_, ⟨stack', hafter, hshows'⟩, before, ?_, hclosed⟩
    · have hlength := length_openAfter hafter
      rw [hdepth, ← hshows'.length_eq, hlength]
      simp
    · rw [hstatement, List.reverse_cons, hbefore, List.append_assoc]
  | @lineEnd t hline hkind hdepth hopened hopened' hchecked hrecent hstatement =>
    rw [hopened] at hshows
    cases hshows
    have hplain : t.isBracket = false := Token.not_isBracket_of_ne_op (by simp [hkind])
    have hafter := (openAfter_append hstack).trans (Lexer.openAfter_of_not_isBracket hplain [])
    refine ⟨h.levelled.concat ?_, ⟨[], hafter, ?_⟩, ts ++ [t], ?_, hafter⟩
    · have hlength := length_openAfter hafter
      rw [hdepth]
      simpa using hlength
    · rw [hopened']
      exact .nil
    · rw [hstatement, List.reverse_nil, List.append_nil]

theorem nested (h : Ordered lx ts) (hopened : lx.opened = []) : openAfter [] ts = some [] := by
  obtain ⟨stack, hstack, hshows⟩ := h.shows
  rw [hopened] at hshows
  cases hshows
  exact hstack

/-- Where no bracket is open, the current statement is in order by itself. -/
theorem line (h : Ordered lx ts) (hopened : lx.opened = [])
    (hchecked : checkLine lx.statement.reverse = .ok ()) : LineInOrder lx.statement.reverse := by
  obtain ⟨before, hbefore, hclosed⟩ := h.statement
  have hts := h.nested hopened
  rw [hbefore, openAfter_append hclosed] at hts
  refine ⟨nested_of_openAfter hts, ?_, hchecked⟩
  exact (slice_of_openAfter hclosed).levelled (hbefore ▸ h.levelled)

/-- The logical line that a step ends. -/
theorem ended_line (h : Ordered lx ts) (hstep : lx.Pushes next us) {line : List Token}
    (hline : line ∈ if lx.atLineEnd then [lx.statement.reverse] else []) : LineInOrder line := by
  cases hstep with
  | nothing hopen | token hopen =>
    rw [hopen] at hline
    cases hline
  | lineEnd hend _ _ hopened _ hchecked =>
    rw [if_pos hend, List.mem_singleton] at hline
    subst hline
    exact h.line hopened hchecked

end Ordered

namespace Lexer

/-- The tokens of a statement are those pushed since the latest line end. -/
theorem Pushes.statement_eq {us : List Token} (h : lx.Pushes next us) :
    (if lx.atLineEnd then [lx.statement.reverse] else []).flatten ++ next.statement.reverse =
      lx.statement.reverse ++ us.filter (·.kind != .newline) := by
  cases h with
  | nothing hline _ _ hstatement => simp [hline, hstatement]
  | token hline hkind _ _ _ hstatement => simp [hline, hstatement, hkind]
  | lineEnd hline hkind _ _ _ _ _ hstatement => simp [hline, hstatement, hkind]

/-- What a run keeps that ends outside all brackets, in a statement that passes its checks. -/
theorem ordered_run {fuel : Nat} (h : Ordered lx ts) (hrun : lx.run fuel = .ok last)
    (hopened : last.opened = []) (hchecked : checkLine last.statement.reverse = .ok ())
    (hfuel : lx.rest.length < fuel) :
    Ordered last (ts ++ lx.tokens fuel) ∧ (∀ line ∈ lx.lines fuel, LineInOrder line) ∧
      (lx.lines fuel).flatten =
        lx.statement.reverse ++ (lx.tokens fuel).filter (·.kind != .newline) := by
  induction fuel generalizing lx ts with
  | zero => cases hfuel
  | succ fuel ih =>
    cases hrest : lx.rest with
    | nil =>
      rw [run_nil hrest] at hrun
      cases hrun
      simp only [tokens, lines, hrest, List.append_nil, List.filter_nil]
      exact ⟨h, by simpa using h.line hopened hchecked, by simp⟩
    | cons b rest =>
      rw [run_cons hrest] at hrun
      cases hstep : lx.step b rest with
      | error e =>
        rw [hstep] at hrun
        cases hrun
      | ok next =>
        rw [hstep] at hrun
        have hpushes := pushes_of_step hrest hstep
        have hshort : next.rest.length < fuel := by
          have hle := (step_suffix hrest hstep).length_le
          rw [hrest, List.length_cons] at hfuel
          omega
        obtain ⟨hlast, hlines, hflatten⟩ := ih (h.step hpushes) hrun hshort
        simp only [tokens, lines, hrest, hstep]
        refine ⟨by rwa [← List.append_assoc], fun line hline => ?_, ?_⟩
        · rcases List.mem_append.1 hline with hline | hline
          · exact h.ended_line hpushes hline
          · exact hlines line hline
        · rw [List.flatten_append, hflatten, ← List.append_assoc, hpushes.statement_eq, List.filter_append,
            List.append_assoc]

end Lexer

theorem ordered_start (source : Text) : Ordered { rest := source } [] :=
  ⟨levelled_nil, ⟨[], rfl, .nil⟩, [], rfl, rfl⟩

theorem flatten_filter_not_isEmpty (lines : List (List Token)) :
    (lines.filter (!·.isEmpty)).flatten = lines.flatten := by
  induction lines with
  | nil => rfl
  | cons line lines ih => cases line <;> simp [ih]

/-- When a source is read to its end, its brackets are nested, each token's depth is the number of
brackets open after it, the tokens are those of the logical lines, and each of these is nested by itself;
so the walks of its checks never count below zero, and visit the tokens of depth zero that are no
brackets, until one of them stops the walk. -/
theorem nested_of_literals {source : Text} {ls : List Literal} (h : literals source = .ok ls) :
    Nested (tokens source) ∧ Levelled (tokens source) ∧
      (checkedLines source).flatten = (tokens source).filter (·.kind != .newline) ∧
      ∀ line ∈ checkedLines source,
        checkLine line = .ok () ∧ Nested line ∧ ∀ w ∈ lineWalks line, w.Exact := by
  obtain ⟨last, hrun, hopened, hchecked, -⟩ := exists_last h
  obtain ⟨hlast, hlines, hflatten⟩ :=
    Lexer.ordered_run (ordered_start source) hrun hopened hchecked (Nat.lt_succ_self _)
  refine ⟨nested_of_openAfter (hlast.nested hopened), hlast.levelled, ?_, fun line hline => ?_⟩
  · exact (flatten_filter_not_isEmpty _).trans hflatten
  · obtain ⟨hnested, hlevelled, hchecked⟩ := hlines line (List.mem_of_mem_filter hline)
    refine ⟨hchecked, hnested, fun w hw => Walk.exact_of_levelled ?_⟩
    exact (slice_of_mem_lineWalks hw).levelled hlevelled

/-- Two logical lines over four lines, with brackets of all kinds and all the walks of the checks. -/
def bracketSample : Text :=
  Text.ofString "def f(a=[1, \x7b'k': 'v'\x7d],\n  b=(2)): return [a,\n  b]\n" ++
    Text.ofString "for x in g(y)[0]: z[x] = w = lambda q=(1): q; print(z)\n"

theorem bracketSample_nested :
    literals bracketSample = .ok [⟨"1", 1, true, []⟩, ⟨"k", 1, false, []⟩, ⟨"v", 1, false, "k"⟩,
      ⟨"2", 2, true, []⟩, ⟨"0", 4, true, []⟩, ⟨"1", 4, true, []⟩] ∧
    Nested (tokens bracketSample) ∧ Levelled (tokens bracketSample) ∧
    (checkedLines bracketSample).flatten = (tokens bracketSample).filter (·.kind != .newline) ∧
    (∀ line ∈ checkedLines bracketSample,
      checkLine line = .ok () ∧ Nested line ∧ ∀ w ∈ lineWalks line, w.Exact) ∧
    ((checkedLines bracketSample).map fun line => (lineWalks line).map (·.visited.length)) =
      [[4, 3, 1], [16, 5, 2, 5, 1, 1, 1]] := by
  have hliterals : literals bracketSample = .ok [⟨"1", 1, true, []⟩, ⟨"k", 1, false, []⟩,
      ⟨"v", 1, false, "k"⟩, ⟨"2", 2, true, []⟩, ⟨"0", 4, true, []⟩, ⟨"1", 4, true, []⟩] := by
    decide
  obtain ⟨hnested, hlevelled, hflatten, hlines⟩ := nested_of_literals hliterals
  exact ⟨hliterals, hnested, hlevelled, hflatten, hlines, by decide⟩

end LiteralAudit.Python
