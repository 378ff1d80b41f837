import LiteralAudit.Proofs.Literal.Python.Walks
import Mathlib

/-!
# Statements that pass the checks

Tokens that neither separate nor stop are passed by the search for separators, with their brackets
(`splitOutsideFrom_append`), and nested tokens inside a bracket by the search for the end of a header
(`splitHeaderFrom_append_of_nested`). So an assignment to a name that is no keyword passes, with or without
annotation (`checkLine_assignment`), and so does the definition of a function, whatever stands nested
between its parentheses (`checkLine_definition`).
-/

namespace LiteralAudit.Python

variable {stop sep : Token → Bool} {nest : Int} {part ts us : List Token}

theorem splitOutsideFrom_append (h : ∀ t ∈ ts, stop t = false ∧ sep t = false) :
    splitOutsideFrom stop sep nest part (ts ++ us) =
      splitOutsideFrom stop sep (nest + balance ts) (ts.reverse ++ part) us := by
  induction ts generalizing nest part with
  | nil => simp
  | cons t ts ih =>
    have ht := h t List.mem_cons_self
    have hrest : ∀ u ∈ ts, stop u = false ∧ sep u = false := fun u hu => h u (List.mem_cons_of_mem t hu)
    have hts {nest : Int} {part : List Token} := @ih nest part hrest
    rw [List.cons_append, splitOutsideFrom_cons]
    cases hbracket : t.isBracket with
    | true => simp [hts, Int.add_assoc]
    | false => simp [ht.1, ht.2, hts, Token.change_of_not_isBracket hbracket]

/-- Inside a bracket, nested tokens are passed on the way to the colon of a header. -/
theorem splitHeaderFrom_append_of_nested (hts : Nested ts) {seen header : List Token} (hnest : 0 < nest) :
    splitHeaderFrom nest (pendingLambdas seen) header (ts ++ us) =
      splitHeaderFrom nest (pendingLambdas seen) (ts.reverse ++ header) us := by
  induction hts generalizing nest header us with
  | nil => rfl
  | @plain t ht =>
    have hne : (nest == 0) = false := by
      rw [beq_eq_false_iff_ne]
      omega
    simp [splitHeaderFrom_cons, ht, hne]
  | @group o c ts hpair _ ih =>
    have hopens := Token.opens_of_closedBy hpair
    have hcloses := Token.closes_of_closedBy hpair
    have hopen : o.isBracket = true := by simp [Token.isBracket, hopens]
    have hclose : c.isBracket = true := by simp [Token.isBracket, hcloses]
    have hline : (o :: ts ++ [c]) ++ us = o :: (ts ++ (c :: us)) := by simp
    rw [hline, splitHeaderFrom_cons, if_pos hopen, Token.change_of_opens hopens,
      ih (by omega), splitHeaderFrom_cons, if_pos hclose, Token.change_of_closes hcloses]
    simp
  | @append ts ts' _ _ ih ih' =>
    rw [List.append_assoc, ih hnest, ih' hnest, List.reverse_append, List.append_assoc]

/-! ## Assignments -/

/-- The tokens of a line without a semicolon are one statement. -/
theorem checkLine_of_no_semicolon (h : ∀ t ∈ ts, t.isOp ";" = false) :
    checkLine ts = checkStatement ts := by
  have hsplit : splitOutside (fun _ => false) (·.isOp ";") ts = [ts] := by
    have happend := @splitOutsideFrom_append (fun _ => false) (·.isOp ";") 0 [] ts []
      fun t ht => ⟨rfl, h t ht⟩
    rw [List.append_nil, List.append_nil] at happend
    rw [splitOutside, happend, splitOutsideFrom, List.reverse_reverse]
  rw [checkLine, hsplit]
  simp [List.forM_eq_forM]

theorem not_contains_of_free {text : Text} {words : List Text} (hwords : words ⊆ keywords)
    (hfree : text ∉ keywords) : words.contains text = false :=
  Bool.eq_false_iff.2 fun h => hfree (hwords (List.contains_iff_mem.1 h))

theorem ne_of_free {text word : Text} (hword : word ∈ keywords) (hfree : text ∉ keywords) :
    (text == word) = false := by
  rw [beq_eq_false_iff_ne]
  rintro rfl
  exact hfree hword

/-- A statement that starts with a name which is no keyword is a simple one. -/
theorem checkStatement_of_free {first : Token} (hname : first.kind = .name)
    (hfree : first.text ∉ keywords) (rest : List Token) :
    checkStatement (first :: rest) = checkSimple (first :: rest) := by
  have hne (word : Text) (hword : word ∈ keywords) := ne_of_free hword hfree
  have hcompound : compoundWords.contains first.text = false :=
    not_contains_of_free (by decide) hfree
  rw [checkStatement.eq_def]
  simp only [hname, hne "async" (by decide), hne "def" (by decide), hne "class" (by decide), hcompound,
    bne_self_eq_false, Bool.or_self, Bool.false_eq_true, if_false]

/-- The token separates neither statements nor targets, and starts no lambda. -/
structure Token.Quiet (t : Token) : Prop where
  lambda : t.isWord "lambda" = false
  equals : t.isOp "=" = false
  semicolon : t.isOp ";" = false

theorem quiet_of_free {t : Token} (hname : t.kind = .name) (hfree : t.text ∉ keywords) : t.Quiet := by
  have hlambda : (t.text == Text.ofString "lambda") = false := ne_of_free (by decide) hfree
  exact ⟨by simp [Token.isWord, hlambda], by simp [Token.isOp, hname], by simp [Token.isOp, hname]⟩

/-- What follows the last target of an assignment is not looked at. -/
theorem checkSimple_assignment {target : List Token} {value : Token} (hne : target ≠ [])
    (htarget : ∀ t ∈ target, t.Quiet)
    (hbalance : balance target = 0) (hvalue : value.kind = .string) (depth line : Nat) :
    checkSimple (target ++ [⟨.op, "=", depth, line⟩, value]) = checkTarget target := by
  have hop : Token.isBracket ⟨.op, "=", depth, line⟩ = false := rfl
  have hword : Token.isWord ⟨.op, "=", depth, line⟩ "lambda" = false := rfl
  have hequals : Token.isOp ⟨.op, "=", depth, line⟩ "=" = true := rfl
  have hsplit : splitOutside (·.isWord "lambda") (·.isOp "=")
      (target ++ [⟨.op, "=", depth, line⟩, value]) = [target, [value]] := by
    have hplain : value.isBracket = false := Token.not_isBracket_of_ne_op (by rw [hvalue]; decide)
    have hlambda : value.isWord "lambda" = false := by simp [Token.isWord, hvalue]
    have heq : value.isOp "=" = false := by simp [Token.isOp, hvalue]
    rw [splitOutside, splitOutsideFrom_append fun t ht => ⟨(htarget t ht).lambda, (htarget t ht).equals⟩,
      hbalance]
    simp only [splitOutsideFrom_cons, hop, hword, hequals, hplain, hlambda, heq]
    simp [splitOutsideFrom.eq_1]
  rw [checkSimple, hsplit]
  obtain ⟨t, rest, rfl⟩ := List.exists_cons_of_ne_nil hne
  simp [List.forM_eq_forM]

/-- Of a target with an annotation, the name counts only. -/
theorem checkTarget_annotated {name : Token} {hint : List Token} (hname : name.kind = .name)
    (hfree : name.text ∉ keywords)
    (hhint : ∀ t ∈ hint.head?, t.isOp ":" = true ∧ t.isBracket = false) :
    checkTarget (name :: hint) = .ok () := by
  have hcolon : ((outside (name :: hint)).takeWhile fun t => !t.isOp ":") = [name] := by
    have hno : name.isOp ":" = false := by simp [Token.isOp, hname]
    rw [outside, outsideFrom_cons, Token.not_isBracket_of_name hname]
    cases hint with
    | nil => simp [outsideFrom, hno]
    | cons t hint => simp [outsideFrom_cons, hhint t rfl, hno]
  rw [checkTarget, hcolon]
  simp [hname, hfree]

/-- An assignment of a string to a name, with or without annotation. -/
theorem checkLine_assignment {name value : Token} {hint : List Token}
    (hname : name.kind = .name) (hfree : name.text ∉ keywords)
    (hhint : ∀ t ∈ hint.head?, t.isOp ":" = true ∧ t.isBracket = false)
    (hquiet : ∀ t ∈ hint, t.Quiet) (hbalance : balance hint = 0) (hvalue : value.kind = .string) (depth line : Nat) :
    checkLine (name :: hint ++ [⟨.op, "=", depth, line⟩, value]) = .ok () := by
  have htarget : ∀ t ∈ name :: hint, t.Quiet := by
    intro t ht
    rcases List.mem_cons.1 ht with rfl | ht
    · exact quiet_of_free hname hfree
    · exact hquiet t ht
  rw [checkLine_of_no_semicolon, List.cons_append, checkStatement_of_free hname hfree,
    ← List.cons_append, checkSimple_assignment (List.cons_ne_nil _ _) htarget _ hvalue]
  · exact checkTarget_annotated hname hfree hhint
  · simp [Token.change_of_not_isBracket (Token.not_isBracket_of_name hname), hbalance]
  · intro t ht
    rcases List.mem_append.1 ht with ht | ht
    · exact (htarget t ht).semicolon
    · rcases List.mem_pair.1 ht with rfl | rfl
      · rfl
      · simp [Token.isOp, hvalue]

/-! ## Definitions -/

/-- The tokens of a function whose parameters are given, with `pass` for a body. -/
def definitionTokens (f : Text) (parameters : List Token) (line line' : Nat) : List Token :=
  ⟨.name, "def", 0, line⟩ :: ⟨.name, f, 0, line⟩ :: ⟨.op, "(", 1, line⟩ ::
    (parameters ++ [⟨.op, ")", 0, line'⟩, ⟨.op, ":", 0, line'⟩, ⟨.name, "pass", 0, line'⟩])

theorem splitHeader?_definition {f : Text} (hf : f ∉ keywords) (hts : Nested ts) (line line' : Nat) :
    ∃ header, splitHeader? (definitionTokens f ts line line').tail =
      some (header, [⟨.name, "pass", 0, line'⟩]) := by
  have hname : Token.isBracket ⟨.name, f, 0, line⟩ = false := rfl
  have hcolon : Token.isOp ⟨.name, f, 0, line⟩ ":" = false := rfl
  have hlambda : Token.isWord ⟨.name, f, 0, line⟩ "lambda" = false :=
    @ne_of_free _ "lambda" (by decide) hf
  have hseen : pendingLambdas [⟨.name, f, 0, line⟩] = 0 := by
    rw [pendingLambdas, hlambda, hcolon]
    rfl
  have hopen : Token.isBracket ⟨.op, "(", 1, line⟩ = true := rfl
  have hopened : Token.change ⟨.op, "(", 1, line⟩ = 1 := rfl
  show ∃ header, splitHeaderFrom 0 (pendingLambdas []) [] (definitionTokens f ts line line').tail = _
  rw [definitionTokens, List.tail_cons, splitHeaderFrom_cons, hname, hcolon]
  simp only [Bool.false_eq_true, if_false, Bool.false_and, beq_self_eq_true, if_true]
  rw [splitHeaderFrom_cons, if_pos hopen, hopened, splitHeaderFrom_append_of_nested hts (by decide),
    hseen]
  exact ⟨_, rfl⟩

/-- The definition of a function, whatever stands nested between its parentheses. -/
theorem checkLine_definition {f : Text} (hf : f ∉ keywords) (hts : Nested ts)
    (hplain : ∀ t ∈ ts, t.isOp ";" = false) (line line' : Nat) :
    checkLine (definitionTokens f ts line line') = .ok () := by
  obtain ⟨header, hheader⟩ := splitHeader?_definition hf hts line line'
  have hfree : keywords.contains f = false := not_contains_of_free (List.Subset.refl _) hf
  have hdefinition : checkDefinition ⟨.name, "def", 0, line⟩ (definitionTokens f ts line line').tail =
      .ok () := by
    simp only [definitionTokens, List.tail_cons, checkDefinition, hfree]
    rfl
  have hcompound : checkCompound ⟨.name, "def", 0, line⟩ (definitionTokens f ts line line').tail =
      .ok () := by
    rw [checkCompound, hheader]
    rfl
  rw [checkLine_of_no_semicolon]
  · show checkStatement (⟨.name, "def", 0, line⟩ :: (definitionTokens f ts line line').tail) = _
    rw [checkStatement.eq_def]
    dsimp only
    rw [hdefinition, hcompound]
    rfl
  · intro t ht
    simp only [definitionTokens, List.mem_cons, List.mem_append, List.not_mem_nil, or_false] at ht
    rcases ht with rfl | rfl | rfl | ht | rfl | rfl | rfl
    case inr.inr.inr.inl => exact hplain t ht
    all_goals rfl

end LiteralAudit.Python
