import LiteralAudit.Proofs.Literal.Python.Lexer
import LiteralAudit.Proofs.Text.LineEnds
import Mathlib

/-!
# Line numbers

The lexer counts a line at each line break, wherever it stands: between tokens, behind a backslash, and
in two places inside a string. No step changes the line on which the source ends, as the lexer sees it:
its own line and one for each line break that is left (`Lexer.lastLine`, `lastLine_step`). So the line
of a state is told by what has been read, and all lines that are kept lie between the first line and
that of the state (`Lexer.Bounded`).

`lines_of_literals_and_faults` is the main statement: the line of a literal counts the line breaks in
front of it, and the line of an error is one of the source.
-/

namespace LiteralAudit.Python

open Text (lf)

variable {lx next : Lexer} {b : UInt8} {rest t : Text} {o : Opening} {e : ParseError}

/-! ## Faults of a logical line -/

/-- A fault, if there is one, is reported on the line of one of the tokens. -/
def FaultsAmong (ts : List Token) (r : Except ParseError Unit) : Prop :=
  ∀ e, r = .error e → ∃ t ∈ ts, e.line = t.line

namespace FaultsAmong

variable {ts us : List Token} {r : Except ParseError Unit}

theorem ok (ts : List Token) : FaultsAmong ts (.ok ()) := by
  intro e h
  cases h

theorem error {t : Token} (ht : t ∈ ts) (f : Fault) : FaultsAmong ts (.error (f.at t.line)) := by
  intro e h
  cases h
  exact ⟨t, ht, rfl⟩

theorem mono (hsub : ts ⊆ us) (h : FaultsAmong ts r) : FaultsAmong us r := by
  intro e he
  obtain ⟨t, ht, hline⟩ := h e he
  exact ⟨t, hsub ht, hline⟩

theorem bind (h : FaultsAmong ts r) {f : Unit → Except ParseError Unit} (hf : FaultsAmong ts (f ())) :
    FaultsAmong ts (r >>= f) := by
  intro e he
  cases r with
  | error e' => exact h e he
  | ok u => exact hf e he

theorem forM {parts : List (List Token)} {f : List Token → Except ParseError Unit}
    (h : ∀ part ∈ parts, FaultsAmong ts (f part)) : FaultsAmong ts (parts.forM f) := by
  induction parts with
  | nil => exact ok ts
  | cons part parts ih =>
    rw [List.forM_eq_forM, List.forM_cons]
    exact (h part List.mem_cons_self).bind (ih fun p hp => h p (List.mem_cons_of_mem _ hp))

end FaultsAmong

theorem outsideFrom_sublist (nest : Int) (ts : List Token) : (outsideFrom nest ts).Sublist ts := by
  induction ts generalizing nest with
  | nil => exact List.Sublist.refl _
  | cons t ts ih =>
    rw [outsideFrom]
    split_ifs
    · exact (ih (nest + 1)).cons t
    · exact (ih (nest - 1)).cons t
    · exact (ih nest).cons_cons t
    · exact (ih nest).cons t

theorem sublist_of_mem_splitOutsideFrom (stop sep : Token → Bool) (nest : Int) (part ts : List Token)
    {found : List Token} (h : found ∈ splitOutsideFrom stop sep nest part ts) :
    found.Sublist (part.reverse ++ ts) := by
  induction ts generalizing nest part with
  | nil =>
    rw [splitOutsideFrom, List.mem_singleton] at h
    rw [h, List.append_nil]
  | cons t ts ih =>
    have hpassed (nest : Int) (h : found ∈ splitOutsideFrom stop sep nest (t :: part) ts) :
        found.Sublist (part.reverse ++ t :: ts) := by
      have hsub := ih nest (t :: part) h
      rwa [List.reverse_cons, List.append_assoc, List.singleton_append] at hsub
    rw [splitOutsideFrom] at h
    split_ifs at h
    · exact hpassed _ h
    · exact hpassed _ h
    · rw [List.mem_singleton.1 h]
    · rcases List.mem_cons.1 h with rfl | h
      · exact List.sublist_append_left _ _
      · have hsub := ih nest [] h
        rw [List.reverse_nil, List.nil_append] at hsub
        exact (hsub.cons t).trans (List.sublist_append_right _ _)
    · exact hpassed _ h

theorem sublist_of_mem_splitOutside {stop sep : Token → Bool} {ts found : List Token}
    (h : found ∈ splitOutside stop sep ts) : found.Sublist ts :=
  sublist_of_mem_splitOutsideFrom stop sep 0 [] ts h

theorem splitHeaderFrom_sublist {nest : Int} {lambdas : Nat} {header ts : List Token}
    {found : List Token × List Token} (h : splitHeaderFrom nest lambdas header ts = some found) :
    found.1.Sublist (header.reverse ++ ts) ∧ found.2.Sublist ts := by
  induction ts generalizing nest lambdas header with
  | nil => cases h
  | cons t ts ih =>
    have hpassed {nest : Int} {lambdas : Nat}
        (h : splitHeaderFrom nest lambdas (t :: header) ts = some found) :
        found.1.Sublist (header.reverse ++ t :: ts) ∧ found.2.Sublist (t :: ts) := by
      have hsub := ih h
      rw [List.reverse_cons, List.append_assoc, List.singleton_append] at hsub
      exact ⟨hsub.1, hsub.2.cons t⟩
    rw [splitHeaderFrom] at h
    split_ifs at h
    · exact hpassed h
    · exact hpassed h
    · exact hpassed h
    · cases h
      exact ⟨List.sublist_append_left _ _, List.sublist_cons_self t ts⟩
    · exact hpassed h
    · exact hpassed h

theorem faultsAmong_checkTarget (target : List Token) : FaultsAmong target (checkTarget target) := by
  have hnamed : ((outside target).takeWhile fun t => !t.isOp ":") ⊆ target :=
    ((List.takeWhile_sublist _).trans (outsideFrom_sublist 0 target)).subset
  unfold checkTarget
  dsimp only
  split
  · next t ht => exact .error (hnamed (List.mem_of_find?_eq_some ht)) _
  · split
    · next t ht =>
      split
      · exact .error (hnamed (List.mem_of_getLast? ht)) _
      · exact .ok _
    · exact .ok _

theorem faultsAmong_checkSimple (ts : List Token) : FaultsAmong ts (checkSimple ts) := by
  unfold checkSimple
  dsimp only
  split
  · exact .ok _
  · refine .forM fun target htarget => ?_
    have hsub : target ⊆ ts := (sublist_of_mem_splitOutside (List.mem_of_mem_dropLast htarget)).subset
    split
    · exact .error List.mem_cons_self _
    · exact (faultsAmong_checkTarget target).mono hsub
  · split
    · next t ht => exact .error (List.mem_of_getLast? ht) _
    · exact .ok _

theorem faultsAmong_checkHeader (first : Token) (header : List Token) :
    FaultsAmong (first :: header) (checkHeader first header) := by
  unfold checkHeader
  dsimp only
  split
  · split
    · exact .error (List.mem_cons_of_mem _ List.mem_cons_self) _
    · exact .ok _
  · split
    · split
      · exact .error List.mem_cons_self _
      · exact .ok _
    · split
      · split
        · exact .ok _
        · exact .error List.mem_cons_self _
      · exact .ok _

theorem faultsAmong_checkCompound (first : Token) (rest : List Token) :
    FaultsAmong (first :: rest) (checkCompound first rest) := by
  unfold checkCompound
  split
  · exact .error List.mem_cons_self _
  · next header body hsplit =>
    obtain ⟨hheader, hbody⟩ := splitHeaderFrom_sublist hsplit
    rw [List.reverse_nil, List.nil_append] at hheader
    refine ((faultsAmong_checkHeader first header).mono (hheader.cons_cons first).subset).bind ?_
    cases body with
    | nil => exact .ok _
    | cons t body =>
      have hsimple := (faultsAmong_checkSimple (t :: body)).mono (hbody.cons first).subset
      have hfirst := (hbody.cons first).subset List.mem_cons_self
      dsimp only
      split
      · exact FaultsAmong.bind (.error hfirst _) hsimple
      · exact hsimple

theorem faultsAmong_checkDefinition (first : Token) (rest : List Token) :
    FaultsAmong (first :: rest) (checkDefinition first rest) := by
  unfold checkDefinition
  split
  · exact .error List.mem_cons_self _
  · split
    · exact .error List.mem_cons_self _
    · split
      · exact .error List.mem_cons_self _
      · split
        · exact .ok _
        · exact .error (List.mem_cons_of_mem _ (List.mem_cons_of_mem _ List.mem_cons_self)) _

theorem faultsAmong_checkStatement (ts : List Token) : FaultsAmong ts (checkStatement ts) := by
  induction ts with
  | nil => exact .ok _
  | cons first rest ih =>
    rw [checkStatement.eq_def]
    dsimp only
    split
    · exact faultsAmong_checkSimple _
    · split
      · split
        · exact .error List.mem_cons_self _
        · split
          · exact ih.mono (List.subset_cons_self first _)
          · exact .error List.mem_cons_self _
      · have hlast : FaultsAmong (first :: rest)
            (if compoundWords.contains first.text then checkCompound first rest
              else checkSimple (first :: rest)) := by
          split
          · exact faultsAmong_checkCompound first rest
          · exact faultsAmong_checkSimple _
        split
        · exact (faultsAmong_checkDefinition first rest).bind hlast
        · exact hlast

theorem faultsAmong_checkLine (ts : List Token) : FaultsAmong ts (checkLine ts) :=
  .forM fun part hpart => (faultsAmong_checkStatement part).mono (sublist_of_mem_splitOutside hpart).subset

/-! ## Line breaks that are passed -/

theorem count_dropWhile {p : UInt8 → Bool} (hp : p lf = false) (t : Text) :
    (t.dropWhile p).count lf = t.count lf := by
  induction t with
  | nil => rfl
  | cons b rest ih =>
    rw [List.dropWhile_cons]
    split
    · next hb =>
      have hne : b ≠ lf := by
        rintro rfl
        rw [hp] at hb
        cases hb
      rw [ih, List.count_cons_of_ne hne]
    · rfl

theorem count_numberSpan (hex : Bool) (done t : Text) :
    (numberSpan hex done t).2.count lf = t.count lf := by
  induction t generalizing done with
  | nil => rfl
  | cons b rest ih =>
    rw [numberSpan]
    split_ifs with hname hsign
    · have hne : b ≠ lf := by
        rintro rfl
        revert hname
        decide
      rw [ih, List.count_cons_of_ne hne]
    · have hne : b ≠ lf := by
        rintro rfl
        rw [Bool.and_eq_true, Bool.and_eq_true] at hsign
        exact absurd hsign.1.1 (by decide)
      rw [ih, List.count_cons_of_ne hne]
    · rfl

theorem startsWith_quotes {quote : UInt8} (h : Text.startsWith t [quote, quote] = true) :
    t = quote :: quote :: t.drop 2 := by
  match t with
  | [] => cases h
  | [a] =>
    revert h
    simp only [Text.startsWith, Text.dropFront?]
    split_ifs <;> simp
  | a :: c :: rest =>
    revert h
    simp only [Text.startsWith, Text.dropFront?]
    split_ifs with ha hc
    · rw [beq_iff_eq] at ha hc
      subst ha hc
      exact fun _ => rfl
    · simp
    · simp

/-- The line breaks in the rest of a string are those that are counted. -/
theorem count_stringBody? {raw triple : Bool} {quote : UInt8} (hquote : quote ≠ lf) {done : Text}
    {breaks : Nat} {found : Text × Nat × Text}
    (h : stringBody? raw triple quote done breaks t = some found) :
    found.2.1 + found.2.2.count lf = breaks + t.count lf := by
  fun_induction stringBody? raw triple quote done breaks t with
  | case1 | case5 | case6 => cases h
  | case2 done breaks b rest hend =>
    cases h
    have hb : b = quote := by simpa using And.left (by simpa using hend)
    rw [List.count_cons_of_ne (hb ▸ hquote)]
  | case3 done breaks b rest _ hend =>
    cases h
    rw [Bool.and_eq_true, beq_iff_eq] at hend
    obtain ⟨rfl, hquotes⟩ := hend
    rw [startsWith_quotes hquotes, List.count_cons_of_ne hquote, List.count_cons_of_ne hquote,
      List.count_cons_of_ne hquote]
    rfl
  | case4 done breaks b rest _ _ hb _ ih =>
    rw [ih h, beq_iff_eq.1 hb, List.count_cons_self]
    omega
  | case7 done breaks b _ hb _ next rest hnext _ ih =>
    have hne : b ≠ lf := by simpa using hb
    rw [ih h, beq_iff_eq.1 hnext, List.count_cons_of_ne hne, List.count_cons_self]
    omega
  | case8 done breaks b _ hb _ next rest hnext _ _ ih
    | case9 done breaks b _ hb _ next rest hnext _ _ ih =>
    have hne : b ≠ lf := by simpa using hb
    have hne' : next ≠ lf := by simpa using hnext
    rw [ih h, List.count_cons_of_ne hne, List.count_cons_of_ne hne']
  | case10 done breaks b rest _ _ hb _ ih =>
    have hne : b ≠ lf := by simpa using hb
    rw [ih h, List.count_cons_of_ne hne]

/-! ## Every line break is counted once -/

namespace Lexer

/-- The line on which the source ends, as the lexer sees it: its own line, and one more for each line
break that is left. -/
def lastLine (lx : Lexer) : Nat := lx.line + lx.rest.count lf

@[simp] theorem lastLine_push (lx : Lexer) (kind : Kind) (text : Text) :
    (lx.push kind text).lastLine = lx.lastLine := rfl

@[simp] theorem line_push (lx : Lexer) (kind : Kind) (text : Text) :
    (lx.push kind text).line = lx.line := rfl

theorem isQuote_ne_lf {quote : UInt8} (h : isQuote quote = true) : quote ≠ lf := by
  rintro rfl
  exact absurd h (by decide)

theorem count_body (hquote : isQuote o.quote = true) :
    o.body.count lf = (o.quote :: o.rest).count lf := by
  have hne := isQuote_ne_lf hquote
  rw [List.count_cons_of_ne hne, Opening.body]
  split
  · next htriple =>
    have hrest : o.rest = o.quote :: o.quote :: o.rest.drop 2 := startsWith_quotes htriple
    rw [hrest, List.count_cons_of_ne hne, List.count_cons_of_ne hne]
    rfl
  · rfl

theorem count_opening? (h : opening? t = some o) : t.count lf = (o.quote :: o.rest).count lf := by
  obtain ⟨-, front, ht, hfront⟩ := opening?_spec h
  rw [ht, List.count_append, List.count_eq_zero_of_not_mem hfront, Nat.zero_add]

theorem lastLine_readOpening (hrest : opening? lx.rest = some o) (h : lx.readOpening o = .ok next) :
    next.lastLine = lx.lastLine := by
  have hquote := (opening?_spec hrest).1
  obtain ⟨done, breaks, after, hbody, rfl⟩ := exists_of_readOpening h
  have hcount : breaks + after.count lf = o.body.count lf :=
    (count_stringBody? (isQuote_ne_lf hquote) hbody).trans (Nat.zero_add _)
  rw [count_body hquote, ← count_opening? hrest] at hcount
  show lx.line + breaks + after.count lf = lx.line + lx.rest.count lf
  omega

theorem lastLine_readNumber (lx : Lexer) : lx.readNumber.lastLine = lx.lastLine := by
  show lx.line + (numberSpan (isHex lx.rest) [] lx.rest).2.count lf = _
  rw [count_numberSpan]
  rfl

end Lexer

/-! ## Steps -/

/-- What the lexer makes of a literal whose opening quote, or whose first character, starts a text. -/
inductive ReadFrom : Text → Literal → Prop where
  | string {o : Opening} {l : Literal} (quote : isQuote o.quote = true)
      (body : (stringBody? o.raw o.triple o.quote [] 0 o.body).map (·.1) = some l.value.reverse)
      (numeric : l.numeric = false) : ReadFrom (o.quote :: o.rest) l
  | number {b : UInt8} {rest : Text} {l : Literal}
      (first : (Text.isDigit b || (b == '.' && rest.head?.any Text.isDigit)) = true)
      (value : l.value =
        numberValue (numberSpan (isHex (b :: rest)) [] (b :: rest)).1.reverse)
      (numeric : l.numeric = true) : ReadFrom (b :: rest) l

/-- The text from the literal on that starts where the lexer stands: from the opening quote of a string,
or from the first character of a number. -/
def Lexer.literalText? (lx : Lexer) : Option Text :=
  match opening? lx.rest with
  | some o => some (o.quote :: o.rest)
  | none =>
    match lx.rest with
    | b :: rest => if head b rest = .number then some (b :: rest) else none
    | [] => none

/-- What a step does to lines: none is lost, and what is kept of the lines is the one on which the lexer
stood. It reads at most one literal, which is the one that starts there. -/
structure Advances (lx next : Lexer) : Prop where
  lastLine : next.lastLine = lx.lastLine
  line_le : lx.line ≤ next.line
  statement : ∀ t ∈ next.statement, t.line = lx.line ∨ t ∈ lx.statement
  opened : ∀ b ∈ next.opened, b.line = lx.line ∨ b ∈ lx.opened
  literals : match lx.literalText? with
    | none => next.literals = lx.literals
    | some t => ∃ l, next.literals = l :: lx.literals ∧ l.line = lx.line ∧ ReadFrom t l

theorem Lexer.literalText?_of_opening? (h : opening? lx.rest = some o) :
    lx.literalText? = some (o.quote :: o.rest) := by
  rw [literalText?, h]

theorem Lexer.literalText?_of_head (hopening : opening? lx.rest = none) (hrest : lx.rest = b :: rest) :
    lx.literalText? = if head b rest = .number then some (b :: rest) else none := by
  rw [literalText?, hopening, hrest]

theorem advances_readOpening (hopening : opening? lx.rest = some o) (h : lx.readOpening o = .ok next) :
    Advances lx next := by
  have hlast := Lexer.lastLine_readOpening hopening h
  obtain ⟨done, breaks, after, hbody, rfl⟩ := Lexer.exists_of_readOpening h
  refine ⟨hlast, Nat.le_add_right lx.line breaks, ?_, fun b hb => .inr hb, ?_⟩
  · intro t ht
    rcases List.mem_cons.1 ht with rfl | ht
    · exact .inl rfl
    · exact .inr ht
  · rw [Lexer.literalText?_of_opening? hopening]
    refine ⟨_, rfl, rfl, .string (opening?_spec hopening).1 ?_ rfl⟩
    rw [hbody, List.reverse_reverse]
    rfl

/-- A step that reads no literal and stays on its line. -/
theorem Advances.same_line (htext : lx.literalText? = none) (hlast : next.lastLine = lx.lastLine)
    (hline : next.line = lx.line) (hstatement : ∀ t ∈ next.statement, t.line = lx.line ∨ t ∈ lx.statement)
    (hopened : ∀ b ∈ next.opened, b.line = lx.line ∨ b ∈ lx.opened)
    (hliterals : next.literals = lx.literals) : Advances lx next := by
  refine ⟨hlast, hline.ge, hstatement, hopened, ?_⟩
  rw [htext]
  exact hliterals

theorem mem_push (lx : Lexer) (kind : Kind) (text : Text) :
    ∀ t ∈ (lx.push kind text).statement, t.line = lx.line ∨ t ∈ lx.statement := by
  intro t ht
  simp only [Lexer.push, Lexer.pushAt] at ht
  split_ifs at ht
  · exact .inr ht
  · rcases List.mem_cons.1 ht with rfl | ht
    · exact .inl rfl
    · exact .inr ht

theorem advances_of_move {k : Head} (hrest : lx.rest = b :: rest) (hopening : opening? lx.rest = none)
    (hhead : head b rest = k) (h : lx.Move b rest k next) : Advances lx next := by
  have htext := Lexer.literalText?_of_head hopening hrest
  have hcount (hk : k ≠ .lineBreak) : lx.lastLine = lx.line + rest.count lf := by
    have hb : b ≠ lf := fun hb => hk (hhead ▸ head_eq_lineBreak_iff.2 hb)
    rw [Lexer.lastLine, hrest, List.count_cons_of_ne hb]
  have hbreak (hk : k = .lineBreak) : lx.lastLine = lx.line + 1 + rest.count lf := by
    rw [Lexer.lastLine, hrest, head_eq_lineBreak_iff.1 (hhead.trans hk), List.count_cons_self]
    omega
  rw [hhead] at htext
  cases h with
  | lineEnd =>
    refine ⟨(hbreak rfl).symm, Nat.le_succ _, List.forall_mem_nil _, fun b hb => .inr hb, ?_⟩
    rw [htext]
    rfl
  | lineBreak =>
    refine ⟨(hbreak rfl).symm, Nat.le_succ _, fun t ht => .inr ht, fun b hb => .inr hb, ?_⟩
    rw [htext]
    rfl
  | blank =>
    exact .same_line htext (hcount (by decide)).symm rfl (fun t ht => .inr ht) (fun b hb => .inr hb) rfl
  | comment =>
    refine .same_line htext ?_ rfl (fun t ht => .inr ht) (fun b hb => .inr hb) rfl
    rw [hcount (by decide), ← count_dropWhile (p := (· != '\n')) rfl rest]
    rfl
  | @continuation before after hsplit hcarriage =>
    have hbefore : lf ∉ before := by
      rcases hcarriage with rfl | rfl <;> decide
    refine ⟨?_, Nat.le_succ _, fun t ht => .inr ht, fun b hb => .inr hb, ?_⟩
    · rw [hcount (by decide), hsplit, List.count_append, List.count_eq_zero_of_not_mem hbefore,
        List.count_cons_self]
      show lx.line + 1 + after.count lf = lx.line + (0 + (after.count lf + 1))
      omega
    · rw [htext]
      rfl
  | name =>
    refine .same_line htext ?_ rfl (mem_push _ _ _) (fun b hb => .inr hb) rfl
    rw [Lexer.lastLine_push, Lexer.lastLine, count_dropWhile continuesName_lf]
    rfl
  | number =>
    refine ⟨lx.lastLine_readNumber, le_refl _, fun t ht => ?_, fun b hb => .inr hb, ?_⟩
    · rcases List.mem_cons.1 ht with rfl | ht
      · exact .inl rfl
      · exact .inr ht
    · rw [htext, if_pos rfl]
      refine ⟨_, rfl, rfl, .number (isNumber_of_head hhead) ?_ rfl⟩
      rw [← hrest]
  | bracket =>
    refine .same_line htext (hcount (by decide)).symm rfl (mem_push _ _ _) ?_ rfl
    intro c hc
    rcases List.mem_cons.1 hc with rfl | hc
    · exact .inl rfl
    · exact .inr hc
  | @closingBracket top below hbrackets =>
    refine .same_line htext (hcount (by decide)).symm rfl (mem_push _ _ _) ?_ rfl
    intro c hc
    rw [hbrackets]
    exact .inr (List.mem_cons_of_mem top hc)
  | @op more after hsplit hlong =>
    -- None of the longer operators holds a line break.
    have hmore : lf ∉ more := by
      have hall : ∀ op ∈ longOps, lf ∉ op := by decide
      rcases hlong with rfl | hlong
      · exact List.not_mem_nil
      · exact fun hmem => hall _ hlong (List.mem_cons_of_mem b hmem)
    refine .same_line htext ?_ rfl (mem_push _ _ _) (fun b hb => .inr hb) rfl
    rw [hcount (by decide), hsplit, List.count_append, List.count_eq_zero_of_not_mem hmore, Nat.zero_add]
    rfl

theorem advances_step (hrest : lx.rest = b :: rest) (h : lx.step b rest = .ok next) :
    Advances lx next := by
  cases hopening : opening? lx.rest with
  | some o =>
    rw [step_eq_readOpening hrest hopening] at h
    exact advances_readOpening hopening h
  | none => exact advances_of_move hrest hopening rfl (move_of_step hrest hopening h)

/-- A fault is reported on the line of the lexer or on that of a token of the logical line. -/
theorem line_of_step_error (hrest : lx.rest = b :: rest) (h : lx.step b rest = .error e) :
    e.line = lx.line ∨ ∃ t ∈ lx.statement, e.line = t.line := by
  cases hopening : opening? lx.rest with
  | some o =>
    rw [step_eq_readOpening hrest hopening, Lexer.readOpening] at h
    split at h
    · cases h
      exact .inl rfl
    · cases h
  | none =>
    rw [step_eq] at h
    cases hhead : head b rest <;> rw [hhead] at h
    case lineBreak =>
      simp only at h
      split_ifs at h
      rw [Lexer.endStatement_eq] at h
      cases hcheck : checkLine lx.statement.reverse with
      | ok u =>
        rw [hcheck] at h
        cases h
      | error e' =>
        rw [hcheck] at h
        cases h
        obtain ⟨t, ht, hline⟩ := faultsAmong_checkLine _ _ hcheck
        exact .inr ⟨t, List.mem_reverse.1 ht, hline⟩
    case continuation =>
      simp only [Lexer.readContinuation] at h
      split at h
      · split_ifs at h
        cases h
        exact .inl rfl
      · cases h
        exact .inl rfl
    case quote =>
      rw [hrest, opening?_of_isQuote (head_eq_quote_iff.1 hhead)] at hopening
      cases hopening
    case name =>
      rw [readName_of_opening?_eq_none hrest (head_eq_name_iff.1 hhead) hopening] at h
      cases h
    case closingBracket =>
      simp only at h
      split at h
      · split_ifs at h
        cases h
        exact .inl rfl
      · cases h
        exact .inl rfl
    all_goals cases h

/-! ## Runs -/

/-- All lines that the lexer keeps lie between the first line and its own. -/
structure Lexer.Bounded (lx : Lexer) : Prop where
  line : 1 ≤ lx.line
  statement : ∀ t ∈ lx.statement, 1 ≤ t.line ∧ t.line ≤ lx.line
  opened : ∀ b ∈ lx.opened, 1 ≤ b.line ∧ b.line ≤ lx.line

theorem Lexer.Bounded.step (hb : lx.Bounded) (h : Advances lx next) : next.Bounded := by
  have hle := h.line_le
  refine ⟨hb.line.trans hle, fun t ht => ?_, fun c hc => ?_⟩
  · rcases h.statement t ht with heq | hold
    · have hline := hb.line
      omega
    · have hline := hb.statement t hold
      omega
  · rcases h.opened c hc with heq | hold
    · have hline := hb.line
      omega
    · have hline := hb.opened c hold
      omega

/-- A literal of a source is written at a place, given as the number of bytes before it: it is what the
lexer makes of the text from there on, and its line counts the line breaks before. -/
structure WrittenAt (source : Text) (l : Literal) (n : Nat) : Prop where
  read : ReadFrom (source.drop n) l
  line_eq : l.line = 1 + (source.take n).count lf

/-- The place of the literal that starts where the lexer stands. -/
def Lexer.literalPlace? (source : Text) (lx : Lexer) : Option Nat :=
  lx.literalText?.map fun t => source.length - t.length

/-- The places at which the literals of a source start, in order. -/
def literalPlaces (source : Text) : List Nat :=
  (states source).filterMap (Lexer.literalPlace? source)

/-- A state on the way through a source: what is left is the end of the source, and the source ends on
the line that the lexer sees as its last one. -/
structure Lexer.Within (source : Text) (lx : Lexer) : Prop where
  suffix : lx.rest <:+ source
  lastLine : lx.lastLine = 1 + source.count lf
  bounded : lx.Bounded

namespace Lexer.Within

variable {source : Text}

theorem step (hw : lx.Within source) (hrest : lx.rest = b :: rest) (h : lx.step b rest = .ok next) :
    next.Within source := by
  have hadv := advances_step hrest h
  have hsuffix : rest <:+ source := (List.suffix_cons b rest).trans (hrest ▸ hw.suffix)
  exact ⟨(step_suffix hrest h).trans hsuffix, hadv.lastLine.trans hw.lastLine, hw.bounded.step hadv⟩

theorem line_le (hw : lx.Within source) : lx.line ≤ 1 + source.count lf := by
  have hlast := hw.lastLine
  rw [Lexer.lastLine] at hlast
  omega

/-- Where the text of a literal starts, the line of the lexer counts the line breaks before. -/
theorem line_eq (hw : lx.Within source) (h : lx.literalText? = some t) :
    source.drop (source.length - t.length) = t ∧
      lx.line = 1 + (source.take (source.length - t.length)).count lf := by
  have ht : t <:+ lx.rest ∧ t.count lf = lx.rest.count lf := by
    cases hopening : opening? lx.rest with
    | some o =>
      rw [literalText?_of_opening? hopening, Option.some.injEq] at h
      subst h
      obtain ⟨-, front, hrest, -⟩ := opening?_spec hopening
      exact ⟨⟨front, hrest.symm⟩, (count_opening? hopening).symm⟩
    | none =>
      cases hrest : lx.rest with
      | nil =>
        simp only [literalText?, hrest] at h
        cases h
      | cons b rest =>
        rw [literalText?_of_head hopening hrest] at h
        split_ifs at h
        cases h
        exact ⟨List.suffix_refl _, rfl⟩
  obtain ⟨before, hbefore⟩ := ht.1.trans hw.suffix
  have hlast := hw.lastLine
  rw [Lexer.lastLine, ← ht.2, ← hbefore, List.count_append] at hlast
  rw [← hbefore, List.length_append, Nat.add_sub_cancel, List.drop_left, List.take_left]
  exact ⟨rfl, by omega⟩

theorem error_step (hw : lx.Within source) (hrest : lx.rest = b :: rest)
    (h : lx.step b rest = .error e) : 1 ≤ e.line ∧ e.line ≤ 1 + source.count lf := by
  have hle := hw.line_le
  rcases line_of_step_error hrest h with heq | ⟨t, ht, heq⟩
  · have hline := hw.bounded.line
    omega
  · have hline := hw.bounded.statement t ht
    omega

end Lexer.Within

/-- What a run does: it ends with a fault on one of the lines of the source, or it has read the literals
that start at its states, one after another. -/
theorem run_spec {source : Text} (fuel : Nat) (hw : lx.Within source) :
    match lx.run fuel with
    | .error e => 1 ≤ e.line ∧ e.line ≤ 1 + source.count lf
    | .ok last => last.Within source ∧ ∃ found, last.literals = found.reverse ++ lx.literals ∧
        List.Forall₂ (WrittenAt source) found
          ((lx.states fuel).filterMap (Lexer.literalPlace? source)) := by
  induction fuel generalizing lx with
  | zero => exact ⟨hw, [], rfl, .nil⟩
  | succ fuel ih =>
    cases hrest : lx.rest with
    | nil =>
      rw [Lexer.run_nil hrest, Lexer.states_nil hrest]
      exact ⟨hw, [], rfl, .nil⟩
    | cons b rest =>
      rw [Lexer.run_cons hrest]
      cases hstep : lx.step b rest with
      | error e => exact hw.error_step hrest hstep
      | ok next =>
        have hadv := advances_step hrest hstep
        have hrun := ih (hw.step hrest hstep)
        rw [Lexer.states_of_ok hrest hstep]
        show match next.run fuel with
          | .error e => _
          | .ok last => _
        cases hlater : next.run fuel with
        | error e =>
          rw [hlater] at hrun
          exact hrun
        | ok last =>
          rw [hlater] at hrun
          obtain ⟨hlast, found, hfound, hplaces⟩ := hrun
          refine ⟨hlast, ?_⟩
          have hliterals := hadv.literals
          cases htext : lx.literalText? with
          | none =>
            rw [htext] at hliterals
            refine ⟨found, by rw [hfound, hliterals], ?_⟩
            rwa [List.filterMap_cons_none (by rw [Lexer.literalPlace?, htext]; rfl)]
          | some t =>
            rw [htext] at hliterals
            obtain ⟨l, hl, hline, hread⟩ := hliterals
            obtain ⟨hdrop, htake⟩ := hw.line_eq htext
            refine ⟨l :: found, by rw [hfound, hl, List.reverse_cons, List.append_assoc]; rfl, ?_⟩
            rw [List.filterMap_cons_some (by rw [Lexer.literalPlace?, htext]; rfl)]
            refine .cons ⟨?_, ?_⟩ hplaces
            · rwa [hdrop]
            · rw [hline, htake]
              push_cast
              rfl

theorem within_start (source : Text) : Lexer.Within source { rest := source } where
  suffix := List.suffix_refl source
  lastLine := rfl
  bounded := ⟨le_refl 1, List.forall_mem_nil _, List.forall_mem_nil _⟩

/-- When a source is read, each literal has the line that counts the line breaks before its opening quote
or its first character; the places are those at which the lexer starts to read a literal. When it is not,
the line of the error is one of the lines of the source. -/
theorem lines_of_literals_and_faults (source : Text) :
    match literals source with
    | .ok ls => List.Forall₂ (WrittenAt source) ls (literalPlaces source)
    | .error e => 1 ≤ e.line ∧ e.line ≤ 1 + source.count lf := by
  have hrun := run_spec (source.length + 1) (within_start source)
  rw [literals_eq]
  cases hlast : Lexer.run (source.length + 1) { rest := source } with
  | error e =>
    rw [hlast] at hrun
    exact hrun
  | ok last =>
    rw [hlast] at hrun
    obtain ⟨hw, found, hfound, hplaces⟩ := hrun
    have hle := hw.line_le
    show match last.finish with
      | .ok ls => List.Forall₂ (WrittenAt source) ls (literalPlaces source)
      | .error e => 1 ≤ e.line ∧ e.line ≤ 1 + source.count lf
    rw [Lexer.finish]
    cases hopened : last.opened with
    | cons b below =>
      have hline := hw.bounded.opened b (by rw [hopened]; exact List.mem_cons_self)
      show 1 ≤ (b.line : Int) ∧ (b.line : Int) ≤ 1 + source.count lf
      omega
    | nil =>
      rw [Lexer.endStatement_eq]
      cases hcheck : checkLine last.statement.reverse with
      | error e =>
        obtain ⟨t, ht, hline⟩ := faultsAmong_checkLine _ _ hcheck
        have hbound := hw.bounded.statement t (List.mem_reverse.1 ht)
        show 1 ≤ e.line ∧ e.line ≤ 1 + source.count lf
        omega
      | ok u =>
        show List.Forall₂ (WrittenAt source) last.literals.reverse (literalPlaces source)
        rw [hfound, List.append_nil, List.reverse_reverse]
        exact hplaces

/-- A string over two lines, and one behind it with a letter in front. -/
example : literalPlaces "x = '''a\nb'''\ny = b'c'" = [4, 19] := by decide +kernel

end LiteralAudit.Python
