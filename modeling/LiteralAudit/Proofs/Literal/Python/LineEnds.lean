import LiteralAudit.Proofs.Literal.Python.Checks
import LiteralAudit.Proofs.Literal.Python.SplicedStrings
import Mathlib

/-!
# A source with CR LF

A source whose lines end with LF is lexed beside the same source with CR LF. The two lexers stay **alike**
(`Lexer.Alike`): between tokens a CR is a blank, at the end of a comment it belongs to the comment, and
behind a backslash it is passed over. Only strings tell the line ends apart, and the tokens then differ in
the values of strings, which the statement checks do not look at (`checkLine_forget`).

`read_alike_with_crlf_iff` says when both sources are read alike: when no string on the way is **spliced**,
that is, has a backslash directly before a line end, other than a raw one in triple quotes.
-/

namespace LiteralAudit.Python

open Text (cr lf crlf)

/-! ## Two runs side by side -/

/-- Tokens of the two sources: they differ in the value of a string at most, and that is converted as
long as the course is `clean`. -/
structure Token.Alike (clean : Prop) (t t' : Token) : Prop where
  forget_eq : t'.forget = t.forget
  converted : clean → Converted t.text t'.text

namespace Token.Alike

variable {clean : Prop} {t t' : Token}

theorem kind_eq (h : t.Alike clean t') : t'.kind = t.kind := by
  rw [← kind_forget t', h.forget_eq, kind_forget]

theorem depth_eq (h : t.Alike clean t') : t'.depth = t.depth := by
  rw [← depth_forget t', h.forget_eq, depth_forget]

theorem isOp_eq (h : t.Alike clean t') (text : Text) : t'.isOp text = t.isOp text := by
  rw [← isOp_forget t', h.forget_eq, isOp_forget]

theorem imp {clean' : Prop} (himp : clean' → clean) (h : t.Alike clean t') : t.Alike clean' t' :=
  ⟨h.forget_eq, fun hclean => h.converted (himp hclean)⟩

end Token.Alike

/-- Literals that agree up to the line ends in their texts. -/
structure SameLiteral (l l' : Literal) : Prop where
  line_eq : l'.line = l.line
  numeric_eq : l'.numeric = l.numeric
  value : Converted l.value l'.value
  binding : Converted l.binding l'.binding

/-- Both results are the same error, or both are there and related. -/
inductive Parallel {ε α β : Type*} (R : α → β → Prop) : Except ε α → Except ε β → Prop
  | error (e : ε) : Parallel R (.error e) (.error e)
  | ok {a : α} {b : β} : R a b → Parallel R (.ok a) (.ok b)

namespace Parallel

variable {ε α β γ δ : Type*} {R : α → β → Prop} {S : γ → δ → Prop} {x : Except ε α} {y : Except ε β}

theorem eq_error {e : ε} (h : Parallel R (.error e) y) : y = .error e := by
  cases h
  rfl

theorem exists_ok {a : α} (h : Parallel R (.ok a) y) : ∃ b, y = .ok b ∧ R a b := by
  cases h with
  | ok hab => exact ⟨_, rfl, hab⟩

theorem bind (h : Parallel R x y) {f : α → Except ε γ} {g : β → Except ε δ}
    (hfg : ∀ a b, R a b → Parallel S (f a) (g b)) : Parallel S (x.bind f) (y.bind g) := by
  cases h with
  | error e => exact .error e
  | ok hab => exact hfg _ _ hab

theorem map (h : Parallel R x y) {f : α → γ} {g : β → δ} (hfg : ∀ a b, R a b → S (f a) (g b)) :
    Parallel S (x.map f) (y.map g) := by
  cases h with
  | error e => exact .error e
  | ok hab => exact .ok (hfg _ _ hab)

end Parallel

namespace Lexer

/-- The second lexer is in the source with CR LF where the first one is in that with LF, or past a CR
already. The literals are the same as long as the course is `clean`, and no longer. -/
structure Alike (clean : Prop) (lx lx' : Lexer) : Prop where
  rest : lx'.rest = crlf lx.rest ∨ crlf lx.rest = cr :: lx'.rest
  line_eq : lx'.line = lx.line
  opened_eq : lx'.opened = lx.opened
  recent : List.Forall₂ (Token.Alike clean) lx.recent lx'.recent
  statement_eq : lx'.statement.map Token.forget = lx.statement.map Token.forget
  literals : clean ↔ List.Forall₂ SameLiteral lx.literals lx'.literals

namespace Alike

variable {clean : Prop} {lx lx' : Lexer}

theorem congr {clean' : Prop} (h : lx.Alike clean lx') (hiff : clean ↔ clean') : lx.Alike clean' lx' :=
  propext hiff ▸ h

theorem moved (h : lx.Alike clean lx') {rest rest' : Text}
    (hrest : rest' = crlf rest ∨ crlf rest = cr :: rest') {line line' : Nat} (hline : line' = line)
    {opened opened' : List Bracket} (hopened : opened' = opened) :
    Alike clean { lx with rest := rest, line := line, opened := opened }
      { lx' with rest := rest', line := line', opened := opened' } :=
  ⟨hrest, hline, hopened, h.recent, h.statement_eq, h.literals⟩

theorem pushAt (h : lx.Alike clean lx') (line : Nat) {kind : Kind} {text text' : Text}
    (htext : clean → Converted text text') (hkind : kind = .string ∨ text' = text) :
    Alike clean (lx.pushAt line kind text) (lx'.pushAt line kind text') := by
  have htoken : Token.Alike clean ⟨kind, text, lx.opened.length, line⟩
      ⟨kind, text', lx'.opened.length, line⟩ := by
    refine ⟨?_, htext⟩
    rw [h.opened_eq]
    rcases hkind with rfl | rfl <;> rfl
  refine ⟨h.rest, h.line_eq, h.opened_eq, List.forall₂_take memory (.cons htoken h.recent), ?_, h.literals⟩
  rw [Lexer.pushAt, Lexer.pushAt]
  cases kind == .newline with
  | true => exact h.statement_eq
  | false => exact congrArg₂ List.cons htoken.forget_eq h.statement_eq

theorem push (h : lx.Alike clean lx') (kind : Kind) (text : Text) :
    Alike clean (lx.push kind text) (lx'.push kind text) := by
  rw [Lexer.push, Lexer.push, h.line_eq]
  exact h.pushAt lx.line (fun _ => .refl text) (.inr rfl)

/-- The binding of the next literal is a name, or the text of a string. -/
theorem binding (h : lx.Alike clean lx') (hclean : clean) : Converted lx.binding lx'.binding := by
  have hrecent := h.recent
  rw [Lexer.binding, Lexer.binding]
  generalize lx.recent = recent at hrecent ⊢
  generalize lx'.recent = recent' at hrecent ⊢
  cases hrecent with
  | nil => exact .nil
  | cons hlast hbefore =>
    simp only [hlast.isOp_eq]
    split_ifs
    · cases hbefore with
      | nil => exact .nil
      | cons hname hbefore =>
        simp only [hname.kind_eq]
        split_ifs
        · exact .nil
        · cases hbefore with
          | nil => exact hname.converted hclean
          | cons hcolon hbefore =>
            cases hbefore with
            | nil => exact hname.converted hclean
            | cons htarget hbefore =>
              simp only [hcolon.isOp_eq, htarget.kind_eq, htarget.depth_eq]
              split_ifs
              · exact htarget.converted hclean
              · exact hname.converted hclean
    · cases hbefore with
      | nil => exact .nil
      | cons hkey hbefore =>
        simp only [hkey.kind_eq, hkey.depth_eq]
        split_ifs
        · exact hkey.converted hclean
        · exact .nil
    · exact .nil

/-- After a literal, the course is clean if it was so before and the value is converted. -/
theorem literal (h : lx.Alike clean lx') (line : Nat) {numeric : Bool} {value value' : Text}
    (hnumeric : numeric = true → value' = value) :
    Alike (clean ∧ Converted value value') (lx.literal line numeric value)
      (lx'.literal line numeric value') := by
  have hadded : Alike (clean ∧ Converted value value')
      { lx with literals := ⟨value, line, numeric, lx.binding⟩ :: lx.literals }
      { lx' with literals := ⟨value', line, numeric, lx'.binding⟩ :: lx'.literals } := by
    refine ⟨h.rest, h.line_eq, h.opened_eq, h.recent.imp fun _ _ => Token.Alike.imp And.left,
      h.statement_eq, ?_⟩
    rw [List.forall₂_cons, ← h.literals]
    constructor
    · rintro ⟨hclean, hvalue⟩
      exact ⟨⟨rfl, rfl, hvalue, h.binding hclean⟩, hclean⟩
    · rintro ⟨hsame, hclean⟩
      exact ⟨hclean, hsame.value⟩
  refine hadded.pushAt line And.right ?_
  cases numeric with
  | false => exact .inl rfl
  | true => exact .inr (hnumeric rfl)

theorem endStatement (h : lx.Alike clean lx') :
    Parallel (Alike clean) lx.endStatement lx'.endStatement := by
  have hcheck : checkLine lx'.statement.reverse = checkLine lx.statement.reverse := by
    rw [← checkLine_forget, List.map_reverse, h.statement_eq, ← List.map_reverse, checkLine_forget]
  rw [endStatement_eq, endStatement_eq, hcheck]
  cases checkLine lx.statement.reverse with
  | error e => exact .error e
  | ok u => exact .ok ⟨h.rest, h.line_eq, h.opened_eq, h.recent, rfl, h.literals⟩

/-- A string that is not cut is read in both sources. Its value is converted unless it is spliced. -/
theorem readOpening (h : lx.Alike clean lx') {o : Opening} (hquote : isQuote o.quote = true)
    (hcut : o.cut = false) :
    Parallel (Alike (clean ∧ o.spliced = false)) (lx.readOpening o) (lx'.readOpening o.crlf) := by
  have hone : o.triple = false → o.splices = 0 := by
    intro htriple
    simpa [Opening.cut, htriple] using hcut
  have hspliced : (if o.raw then 0 else o.splices) = 0 ↔ o.spliced = false := by
    rw [Opening.spliced]
    cases hraw : o.raw with
    | false => simp
    | true =>
      cases htriple : o.triple with
      | false => simp [hone htriple]
      | true => simp
  have hbody : Option.Rel (Body.Alike (if o.raw then 0 else o.splices))
      (stringBody? o.raw o.triple o.quote [] 0 o.body)
      (stringBody? o.crlf.raw o.crlf.triple o.crlf.quote [] 0 o.crlf.body) := by
    have hread : Option.Rel (Body.Alike (0 + if o.raw then 0 else o.splices))
        (stringBody? o.raw o.triple o.quote [] 0 o.body)
        (stringBody? o.raw o.triple o.quote [] 0 o.body.crlf) :=
      stringBody?_crlf hquote .nil hone
    rw [Nat.zero_add] at hread
    rw [Opening.triple_crlf hquote, Opening.body_crlf hquote]
    exact hread
  rw [Lexer.readOpening, Lexer.readOpening]
  generalize stringBody? o.raw o.triple o.quote [] 0 o.body = found at hbody ⊢
  generalize stringBody? o.crlf.raw o.crlf.triple o.crlf.quote [] 0 o.crlf.body = found' at hbody ⊢
  cases hbody with
  | none =>
    rw [h.line_eq]
    exact .error _
  | @some found found' hfound =>
    obtain ⟨hlag, hbreaks, hrest⟩ := hfound
    rw [← hspliced, hlag.converted_iff]
    refine .ok ?_
    have hlines : lx.line + found'.2.1 = lx.line + found.2.1 := by rw [hbreaks]
    rw [h.line_eq]
    refine (h.moved (.inl hrest) hlines h.opened_eq).literal lx.line fun hnumeric => ?_
    cases hnumeric

theorem readContinuation (h : lx.Alike clean lx') {b : UInt8} {rest : Text}
    (hrest : lx.rest = b :: rest) (hrest' : lx'.rest = b :: crlf rest) (hcr : cr ∉ rest) :
    Parallel (Alike clean) lx.readContinuation lx'.readContinuation := by
  rw [Lexer.readContinuation, Lexer.readContinuation, hrest, hrest', h.line_eq]
  cases rest with
  | nil => exact .error _
  | cons c rest =>
    by_cases hc : c = lf
    · subst hc
      exact .ok (h.moved (.inl rfl) rfl h.opened_eq)
    · have hne : (c == cr) = false := by
        rw [beq_eq_false_iff_ne]
        rintro rfl
        exact hcr List.mem_cons_self
      have hne' : (c == lf) = false := by simpa using hc
      rw [Text.crlf_cons hc]
      simp only [List.drop_succ_cons, List.drop_zero, List.head?_cons, Option.some_beq_some, hne, hne',
        Bool.false_eq_true, if_false]
      exact .error _

theorem readNumber (h : lx.Alike clean lx') (hrest : lx'.rest = crlf lx.rest) :
    Alike clean lx.readNumber lx'.readNumber := by
  have hhex : isHex lx'.rest = isHex lx.rest := by
    rw [isHex, isHex, hrest, Text.startsWith_crlf (by decide) (by decide),
      Text.startsWith_crlf (by decide) (by decide)]
  have hspan := numberSpan_crlf (isHex lx.rest) [] lx.rest
  rw [Lexer.readNumber, Lexer.readNumber, hhex, hrest, h.line_eq]
  simp only [hspan]
  generalize numberValue (numberSpan (isHex lx.rest) [] lx.rest).1.reverse = value
  have hread : Alike (clean ∧ Converted value value) (lx.literal lx.line true value)
      (lx'.literal lx.line true value) := h.literal lx.line fun _ => rfl
  exact (hread.congr (and_iff_left (.refl value))).moved (.inl rfl) h.line_eq h.opened_eq

theorem readOp (h : lx.Alike clean lx') {b : UInt8} {rest : Text}
    (hrest : lx.rest = b :: rest) (hrest' : lx'.rest = b :: crlf rest) :
    Alike clean lx.readOp lx'.readOp := by
  rw [Lexer.readOp, Lexer.readOp, hrest, hrest']
  have hone : Alike clean (Lexer.push { lx with rest := rest } .op [b])
      (Lexer.push { lx' with rest := crlf rest } .op [b]) :=
    (h.moved (.inl rfl) h.line_eq h.opened_eq).push .op [b]
  by_cases hbreak : rest.head? = some lf
  · -- No operator takes in a line end.
    have hlong {c : UInt8} (hc : longOps.all (!·.contains c) = true) :
        longOps.contains [b, c] = false := by
      by_contra hmem
      rw [Bool.not_eq_false, List.contains_iff_mem] at hmem
      simpa using List.all_eq_true.1 hc _ hmem
    obtain ⟨after, rfl⟩ := List.head?_eq_some_iff.1 hbreak
    have hlf : ¬ longOps.contains ((b :: lf :: after).take 2) = true :=
      ne_true_of_eq_false (hlong (by decide))
    have hcr : ¬ longOps.contains ((b :: crlf (lf :: after)).take 2) = true :=
      ne_true_of_eq_false (hlong (by decide))
    rw [if_neg hlf, if_neg hcr]
    exact hone
  · have htwo : (b :: crlf rest).take 2 = (b :: rest).take 2 ∧
        (b :: crlf rest).drop 2 = crlf ((b :: rest).drop 2) := by
      cases rest with
      | nil => exact ⟨rfl, rfl⟩
      | cons c rest =>
        rw [Text.crlf_cons (by simpa using hbreak)]
        exact ⟨rfl, rfl⟩
    rw [htwo.1, htwo.2]
    split_ifs
    · exact (h.moved (.inl rfl) h.line_eq h.opened_eq).push .op _
    · exact hone

end Alike

/-- A string of one line that is continued on the next is unterminated with CR LF. -/
theorem readOpening_cut {lx lx' : Lexer} {o : Opening} (hline : lx'.line = lx.line)
    (hquote : isQuote o.quote = true) (hcut : o.cut = true) :
    lx'.readOpening o.crlf = .error (Fault.unterminatedString.at lx.line) := by
  rw [Opening.cut, Bool.and_eq_true, Bool.not_eq_true', bne_iff_ne] at hcut
  obtain ⟨htriple, hsplices⟩ := hcut
  rw [Opening.splices, htriple] at hsplices
  rw [Lexer.readOpening, Opening.triple_crlf hquote, Opening.body_crlf hquote, htriple]
  have hbody : stringBody? o.crlf.raw false o.crlf.quote [] 0 o.body.crlf = none :=
    stringBody?_crlf_cut hquote hsplices [] 0
  rw [hbody, hline]

/-! ## Steps -/

/-- The string that starts at the state of the lexer is cut by a CR before the line end. -/
def cut (lx : Lexer) : Bool := (opening? lx.rest).any Opening.cut

/-- The string that starts at the state of the lexer is spliced. -/
def spliced (lx : Lexer) : Bool := (opening? lx.rest).any Opening.spliced

theorem Alike.step {clean : Prop} {lx lx' : Lexer} (h : lx.Alike clean lx') {b : UInt8} {rest : Text}
    (hrest : lx.rest = b :: rest) (hrest' : lx'.rest = b :: crlf rest) (hb : b ≠ cr) (hcr : cr ∉ rest)
    (hcut : lx.cut = false) :
    Parallel (Alike (clean ∧ lx.spliced = false)) (lx.step b rest) (lx'.step b (crlf rest)) := by
  have hopening' : opening? lx'.rest = (opening? lx.rest).map Opening.crlf := by
    rw [hrest, hrest', opening?_crlf]
  rw [Lexer.cut] at hcut
  rw [Lexer.spliced]
  cases hopening : opening? lx.rest with
  | some o =>
    rw [hopening] at hcut hopening'
    rw [step_eq_readOpening hrest hopening, step_eq_readOpening hrest' hopening']
    exact h.readOpening (opening?_spec hopening).1 hcut
  | none =>
    rw [hopening] at hopening'
    have hnow : lx.Alike (clean ∧ Option.any Opening.spliced none = false) lx' :=
      h.congr (and_iff_left rfl).symm
    rw [step_eq, step_eq, head_crlf, h.line_eq, h.opened_eq]
    cases hhead : head b rest with
    | lineBreak =>
      simp only
      split_ifs
      · have hended := (hnow.moved (.inl (Eq.refl (crlf rest))) (Eq.refl (lx.line + 1))
          (Eq.refl lx.opened)).endStatement
        exact hended.map fun _ _ halike => halike.push .newline []
      · exact .ok (hnow.moved (.inl rfl) rfl rfl)
    | blank => exact .ok (hnow.moved (.inl rfl) rfl rfl)
    | comment => exact .ok (hnow.moved (Text.dropWhile_ne_lf_crlf rest) rfl rfl)
    | continuation => exact hnow.readContinuation hrest hrest' hcr
    | quote =>
      rw [hrest, opening?_of_isQuote (head_eq_quote_iff.1 hhead)] at hopening
      cases hopening
    | name =>
      have hname := head_eq_name_iff.1 hhead
      have hb : b ≠ lf := by
        rintro rfl
        cases hname
      have hwhole : lx'.rest = crlf lx.rest := by rw [hrest, hrest', Text.crlf_cons hb]
      simp only [readName_of_opening?_eq_none hrest hname hopening,
        readName_of_opening?_eq_none hrest' hname hopening']
      rw [hwhole, Text.takeWhile_crlf (by decide) (by decide), Text.dropWhile_crlf (by decide) (by decide)]
      exact .ok ((hnow.moved (.inl rfl) h.line_eq h.opened_eq).push .name _)
    | number =>
      have hb : b ≠ lf := by
        rintro rfl
        cases hhead
      have hwhole : lx'.rest = crlf lx.rest := by rw [hrest, hrest', Text.crlf_cons hb]
      exact .ok (hnow.readNumber hwhole)
    | bracket =>
      exact .ok ((hnow.moved (.inl rfl) rfl rfl).push .op [b])
    | closingBracket =>
      cases lx.opened with
      | nil => exact .error _
      | cons top below =>
        simp only
        split_ifs
        · exact .ok ((hnow.moved (.inl rfl) rfl rfl).push .op [b])
        · exact .error _
    | op => exact .ok (hnow.readOp hrest hrest')

theorem step_cut {lx lx' : Lexer} (hline : lx'.line = lx.line) {b : UInt8} {rest : Text}
    (hrest : lx.rest = b :: rest) (hrest' : lx'.rest = b :: crlf rest) (hcut : lx.cut = true) :
    lx'.step b (crlf rest) = .error (Fault.unterminatedString.at lx.line) := by
  obtain ⟨o, hopening, hcut⟩ := (Option.any_eq_true _ _).1 hcut
  have hopening' : opening? lx'.rest = some o.crlf := by
    rw [hrest', opening?_crlf, ← hrest, hopening]
    rfl
  rw [step_eq_readOpening hrest' hopening']
  exact readOpening_cut hline (opening?_spec hopening).1 hcut

/-! ## Runs -/

variable {clean : Prop} {lx lx' : Lexer}

/-- The lexer in the source with CR LF takes the CR before a line end for a blank, unless it did so
already. -/
theorem Alike.run_past_cr (h : lx.Alike clean lx') {b : UInt8} {rest : Text} (hrest : lx.rest = b :: rest)
    (hb : b ≠ cr) {fuel : Nat} (hfuel : lx'.rest.length < fuel) :
    ∃ past fuel', lx.Alike clean past ∧ past.rest = b :: crlf rest ∧ past.rest.length < fuel' + 1 ∧
      lx'.run fuel = past.run (fuel' + 1) := by
  obtain ⟨fuel, rfl⟩ : ∃ k, fuel = k + 1 := Nat.exists_eq_succ_of_ne_zero (Nat.ne_zero_of_lt hfuel)
  have hcases := h.rest
  rw [hrest] at hcases
  by_cases hbreak : b = lf
  · subst hbreak
    rw [Text.crlf_lineBreak] at hcases
    rcases hcases with hrest' | hrest'
    · rw [hrest', List.length_cons, Nat.succ_lt_succ_iff] at hfuel
      obtain ⟨fuel, rfl⟩ : ∃ k, fuel = k + 1 := Nat.exists_eq_succ_of_ne_zero (Nat.ne_zero_of_lt hfuel)
      have hpast : lx.Alike clean { lx' with rest := lf :: crlf rest } :=
        { h with rest := .inr (by rw [hrest, Text.crlf_lineBreak]) }
      exact ⟨_, fuel, hpast, rfl, hfuel, run_cons hrest' _⟩
    · exact ⟨lx', fuel, h, (List.cons.inj hrest').2.symm, hfuel, rfl⟩
  · rw [Text.crlf_cons hbreak] at hcases
    rcases hcases with hrest' | hrest'
    · exact ⟨lx', fuel, h, hrest', hfuel, rfl⟩
    · exact absurd (List.cons.inj hrest').1 hb

theorem Alike.rest_eq_nil (h : lx.Alike clean lx') (hrest : lx.rest = []) : lx'.rest = [] := by
  rcases h.rest with hrest' | hrest'
  · rw [hrest', hrest, Text.crlf_nil]
  · rw [hrest] at hrest'
    cases hrest'

/-- Two runs side by side: the first string that is cut ends the one with CR LF, and without such a
string both take the same course. -/
theorem Alike.run (h : lx.Alike clean lx') (hcr : cr ∉ lx.rest) {fuel fuel' : Nat}
    (hfuel : lx.rest.length < fuel) (hfuel' : lx'.rest.length < fuel') :
    (∀ s, (lx.states fuel).find? cut = some s →
      lx'.run fuel' = .error (Fault.unterminatedString.at s.line)) ∧
    ((lx.states fuel).find? cut = none →
      Parallel (Alike (clean ∧ ∀ s ∈ lx.states fuel, s.spliced = false)) (lx.run fuel) (lx'.run fuel')) := by
  induction fuel generalizing clean lx lx' fuel' with
  | zero => exact absurd hfuel (Nat.not_lt_zero _)
  | succ fuel ih =>
    cases hrest : lx.rest with
    | nil =>
      rw [states_nil hrest, run_nil hrest, run_nil (h.rest_eq_nil hrest)]
      exact ⟨fun s hs => absurd hs (by simp), fun _ => .ok (h.congr (by simp))⟩
    | cons b rest =>
      rw [hrest, List.mem_cons, not_or] at hcr
      obtain ⟨past, fuel', hpast, hrest', hfuel', hrun⟩ := h.run_past_cr hrest (Ne.symm hcr.1) hfuel'
      rw [hrun, run_cons hrest, run_cons hrest']
      cases hcut : lx.cut with
      | true =>
        obtain ⟨later, hstates⟩ := exists_states hrest fuel
        rw [hstates, List.find?_cons_of_pos hcut, step_cut hpast.line_eq hrest hrest' hcut]
        refine ⟨fun s hs => ?_, fun hs => absurd hs (by simp)⟩
        cases hs
        rfl
      | false =>
        have hpass : ¬ lx.cut = true := ne_true_of_eq_false hcut
        have hstep := hpast.step hrest hrest' (Ne.symm hcr.1) hcr.2 hcut
        cases hnext : lx.step b rest with
        | error e =>
          rw [hnext] at hstep
          rw [hstep.eq_error, states_of_error hrest hnext, List.find?_cons_of_neg hpass]
          exact ⟨fun s hs => absurd hs (by simp), fun _ => .error e⟩
        | ok next =>
          rw [hnext] at hstep
          obtain ⟨next', hnext', halike⟩ := hstep.exists_ok
          have hleft : next.rest <:+ rest := step_suffix hrest hnext
          have hleft' : next'.rest <:+ crlf rest := step_suffix hrest' hnext'
          rw [hrest] at hfuel
          rw [hrest'] at hfuel'
          have hruns := ih halike (fun hmem => hcr.2 (hleft.subset hmem))
            (hleft.length_le.trans_lt (Nat.lt_of_succ_lt_succ hfuel))
            (hleft'.length_le.trans_lt (Nat.lt_of_succ_lt_succ hfuel'))
          rw [hnext', states_of_ok hrest hnext, List.find?_cons_of_neg hpass, List.forall_mem_cons,
            ← and_assoc]
          exact hruns

end Lexer

theorem Lexer.Alike.finish {clean : Prop} {lx lx' : Lexer} (h : lx.Alike clean lx') :
    Parallel (fun ls ls' => clean ↔ List.Forall₂ SameLiteral ls ls') lx.finish lx'.finish := by
  rw [Lexer.finish, Lexer.finish, h.opened_eq]
  cases lx.opened with
  | cons b below => exact .error _
  | nil =>
    refine h.endStatement.map fun ended ended' hended => ?_
    rw [List.forall₂_reverse_iff]
    exact hended.literals

variable {source : Text}

/-- The first string that is cut is the error of the source with CR LF. Without such a string, both
sources have the same error, or literals that are the same if no string is spliced and only then. -/
theorem literals_crlf (hcr : cr ∉ source) :
    (∀ s, (states source).find? Lexer.cut = some s →
      literals source.crlf = .error (Fault.unterminatedString.at s.line)) ∧
    ((states source).find? Lexer.cut = none →
      Parallel (fun ls ls' => (∀ s ∈ states source, s.spliced = false) ↔ List.Forall₂ SameLiteral ls ls')
        (literals source) (literals source.crlf)) := by
  have hstart : Lexer.Alike True { rest := source } { rest := source.crlf } :=
    ⟨.inl rfl, rfl, rfl, .nil, rfl, iff_of_true trivial .nil⟩
  obtain ⟨hcut, hsame⟩ := hstart.run hcr (Nat.lt_succ_self source.length)
    (Nat.lt_succ_self source.crlf.length)
  rw [literals_eq, literals_eq, states]
  refine ⟨fun s hs => ?_, fun hnone => ?_⟩
  · rw [hcut s hs]
    rfl
  · have hruns := hsame hnone
    rw [true_and] at hruns
    exact hruns.bind fun _ _ halike => halike.finish

/-- The results of two sources agree: errors in the line, and literals one by one. -/
inductive Agree : Except ParseError (List Literal) → Except ParseError (List Literal) → Prop
  | error {e e' : ParseError} : e'.line = e.line → Agree (.error e) (.error e')
  | ok {ls ls' : List Literal} : List.Forall₂ SameLiteral ls ls' → Agree (.ok ls) (.ok ls')

/-- What strings may do in a source that is read the same with CR LF. -/
structure Steady (source : Text) : Prop where
  /-- In a source that is Python, no string is spliced. -/
  unspliced : ∀ ls, literals source = .ok ls → ∀ s ∈ states source, s.spliced = false
  /-- In any other source, the first string that is cut, if there is one, starts on the line of the
  error. -/
  cut_line : ∀ e, literals source = .error e →
    ∀ s, (states source).find? Lexer.cut = some s → (s.line : Int) = e.line

theorem spliced_of_cut {lx : Lexer} (h : lx.cut = true) : lx.spliced = true := by
  obtain ⟨o, hopening, hcut⟩ := (Option.any_eq_true _ _).1 h
  rw [Opening.cut, Bool.and_eq_true, Bool.not_eq_true'] at hcut
  rw [Lexer.spliced, hopening, Option.any_some, Opening.spliced, hcut.1, Bool.and_false, hcut.2]
  rfl

theorem agree_iff_steady (hcr : cr ∉ source) :
    Agree (literals source) (literals source.crlf) ↔ Steady source := by
  obtain ⟨hcut, hsame⟩ := literals_crlf hcr
  constructor
  · intro hagree
    refine ⟨fun ls hread => ?_, fun e hread s hfirst => ?_⟩
    · cases hfirst : (states source).find? Lexer.cut with
      | some s =>
        rw [hread, hcut s hfirst] at hagree
        cases hagree
      | none =>
        obtain ⟨ls', hread', hiff⟩ := (hread ▸ hsame hfirst).exists_ok
        rw [hread, hread'] at hagree
        cases hagree with
        | ok hsame => exact hiff.2 hsame
    · rw [hread, hcut s hfirst] at hagree
      cases hagree with
      | error hline => exact hline
  · intro hsteady
    cases hread : literals source with
    | error e =>
      cases hfirst : (states source).find? Lexer.cut with
      | some s =>
        rw [hcut s hfirst]
        exact .error (hsteady.cut_line e hread s hfirst)
      | none =>
        have hruns := hsame hfirst
        rw [hread] at hruns
        rw [hruns.eq_error]
        exact .error rfl
    | ok ls =>
      have hnone : (states source).find? Lexer.cut = none := by
        refine List.find?_eq_none.2 fun s hs hcuts => ?_
        have hspliced := spliced_of_cut hcuts
        rw [hsteady.unspliced ls hread s hs] at hspliced
        cases hspliced
      obtain ⟨ls', hread', hiff⟩ := (hread ▸ hsame hnone).exists_ok
      rw [hread']
      exact .ok (hiff.1 (hsteady.unspliced ls hread))

/-- A source without CR is read like the same source with CR LF exactly if it is steady. Values and
bindings are then converted, which leaves no difference once each CR LF is replaced by LF, unless an
escape puts a CR of its own before a line end. -/
theorem read_alike_with_crlf_iff (hcr : cr ∉ source) :
    (Agree (literals source) (literals source.crlf) ↔ Steady source) ∧
    ∀ v v', Converted v v' → ¬ [cr, cr, lf] <:+: v' → v'.toLf = v.toLf :=
  ⟨agree_iff_steady hcr, fun _ _ h hplain => h.toLf_eq hplain⟩

/-- A text in triple quotes, a comment, brackets over two lines and a raw string. -/
def sampler : Text := "x = \"\"\"a\n\"\"\"  # c\ny = (1,\n  rb'b')\n"

theorem sampler_read_alike : cr ∉ sampler ∧ Agree (literals sampler) (literals sampler.crlf) ∧
    Text.toLf "a\r\n" = Text.toLf "a\n" := by
  have hcr : cr ∉ sampler := by decide
  have hread : literals sampler =
      .ok [⟨"a\n", 1, false, "x"⟩, ⟨"1", 3, true, []⟩, ⟨"b", 4, false, []⟩] := by decide +kernel
  have hnone : (states sampler).all (fun s => !s.spliced) = true := by decide +kernel
  have hsteady : Steady sampler := by
    refine ⟨fun ls _ s hs => ?_, fun e herror => ?_⟩
    · have hspliced := List.all_eq_true.1 hnone s hs
      rwa [Bool.not_eq_true'] at hspliced
    · rw [hread] at herror
      cases herror
  obtain ⟨hiff, hsame⟩ := read_alike_with_crlf_iff hcr
  exact ⟨hcr, hiff.2 hsteady, hsame "a\n" "a\r\n" (.cons 'a' (.lineBreak .nil)) (by decide)⟩

/-- A string of one line that goes on behind a backslash on the next. -/
def continued : Text := "x = \"a\\\nb\"\n"

/-- The string is one literal, and unterminated with CR LF. -/
theorem continued_string_lost_with_crlf : cr ∉ continued ∧
    literals continued = .ok [⟨"ab", 1, false, "x"⟩] ∧
    literals continued.crlf = .error ⟨1, "unterminated string literal"⟩ ∧
    ¬ Agree (literals continued) (literals continued.crlf) := by
  have hread : literals continued = .ok [⟨"ab", 1, false, "x"⟩] := by decide +kernel
  have hread' : literals continued.crlf = .error ⟨1, "unterminated string literal"⟩ := by decide +kernel
  refine ⟨by decide, hread, hread', fun hagree => ?_⟩
  rw [hread, hread'] at hagree
  cases hagree

end LiteralAudit.Python
