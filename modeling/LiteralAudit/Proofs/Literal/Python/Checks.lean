import LiteralAudit.Literal.Python.Statement
import Mathlib

/-!
# What the statement checks look at

The checks compare words and operators with fixed spellings, and report the lines of tokens. Of a string
they only see that it is one. So two logical lines whose tokens differ in the values of strings get the
same answer (`checkLine_forget`).
-/

namespace LiteralAudit.Python

/-- The token, without its value when it is a string. -/
def Token.forget (t : Token) : Token := if t.kind = .string then { t with text := [] } else t

namespace Token

@[simp] theorem kind_forget (t : Token) : t.forget.kind = t.kind := by
  unfold forget
  split <;> rfl

@[simp] theorem line_forget (t : Token) : t.forget.line = t.line := by
  unfold forget
  split <;> rfl

@[simp] theorem depth_forget (t : Token) : t.forget.depth = t.depth := by
  unfold forget
  split <;> rfl

theorem forget_of_ne {t : Token} (h : t.kind ≠ .string) : t.forget = t := if_neg h

theorem forget_of_name {t : Token} (h : t.kind = .name) : t.forget = t :=
  forget_of_ne (by rw [h]; decide)

/-- A test of the text that asks for a kind other than string gets the same answer. -/
theorem kind_and_text_forget (kind : Kind) (asks : Text → Bool) (hkind : (Kind.string == kind) = false)
    (t : Token) : (t.forget.kind == kind && asks t.forget.text) = (t.kind == kind && asks t.text) := by
  by_cases h : t.kind = .string
  · rw [kind_forget, h, hkind, Bool.false_and, Bool.false_and]
  · rw [forget_of_ne h]

@[simp] theorem isOp_forget (t : Token) (text : Text) : t.forget.isOp text = t.isOp text :=
  kind_and_text_forget .op (· == text) rfl t

@[simp] theorem isWord_forget (t : Token) (text : Text) : t.forget.isWord text = t.isWord text :=
  kind_and_text_forget .name (· == text) rfl t

@[simp] theorem opens_forget (t : Token) : t.forget.opens = t.opens := by simp [opens]

@[simp] theorem closes_forget (t : Token) : t.forget.closes = t.closes := by simp [closes]

end Token

open Token (forget)

theorem outsideFrom_forget (nest : Int) (ts : List Token) :
    outsideFrom nest (ts.map forget) = (outsideFrom nest ts).map forget := by
  induction ts generalizing nest with
  | nil => rfl
  | cons t ts ih =>
    simp only [List.map_cons, outsideFrom, Token.opens_forget, Token.closes_forget, ih]
    split_ifs <;> rfl

theorem outside_forget (ts : List Token) : outside (ts.map forget) = (outside ts).map forget :=
  outsideFrom_forget 0 ts

theorem splitOutsideFrom_forget (stop sep : Token → Bool) (hstop : ∀ t : Token, stop t.forget = stop t)
    (hsep : ∀ t : Token, sep t.forget = sep t) (nest : Int) (part ts : List Token) :
    splitOutsideFrom stop sep nest (part.map forget) (ts.map forget) =
      (splitOutsideFrom stop sep nest part ts).map (·.map forget) := by
  induction ts generalizing nest part with
  | nil => simp [splitOutsideFrom]
  | cons t ts ih =>
    simp only [List.map_cons, splitOutsideFrom, Token.opens_forget, Token.closes_forget, hstop, hsep]
    split_ifs
    · exact ih (nest + 1) (t :: part)
    · exact ih (nest - 1) (t :: part)
    · simp
    · rw [List.map_cons, ← ih nest [], List.map_reverse, List.map_nil]
    · exact ih nest (t :: part)

theorem splitOutside_forget (stop sep : Token → Bool) (hstop : ∀ t : Token, stop t.forget = stop t)
    (hsep : ∀ t : Token, sep t.forget = sep t) (ts : List Token) :
    splitOutside stop sep (ts.map forget) = (splitOutside stop sep ts).map (·.map forget) :=
  splitOutsideFrom_forget stop sep hstop hsep 0 [] ts

theorem checkTarget_forget (target : List Token) :
    checkTarget (target.map forget) = checkTarget target := by
  have hnamed : (outside (target.map forget)).takeWhile (fun t => !t.isOp ":") =
      ((outside target).takeWhile fun t => !t.isOp ":").map forget := by
    rw [outside_forget, List.takeWhile_map]
    simp [Function.comp_def]
  have hfind (ts : List Token) :
      (ts.map forget).find? (fun t => t.kind == .name && keywords.contains t.text) =
        (ts.find? fun t => t.kind == .name && keywords.contains t.text).map forget := by
    have hsame : (fun t => t.kind == .name && keywords.contains t.text) ∘ forget =
        fun t : Token => t.kind == .name && keywords.contains t.text :=
      funext (Token.kind_and_text_forget .name keywords.contains rfl)
    rw [List.find?_map, hsame]
  unfold checkTarget
  simp only [hnamed, hfind, List.getLast?_map]
  cases hword : ((outside target).takeWhile fun t => !t.isOp ":").find? fun t =>
      t.kind == .name && keywords.contains t.text with
  | some t =>
    have hname := List.find?_some hword
    have hkind : t.kind = .name := by
      cases hkind : t.kind <;> rw [hkind] at hname <;> first | rfl | cases hname
    simp [Token.forget_of_name hkind]
  | none =>
    cases ((outside target).takeWhile fun t => !t.isOp ":").getLast? with
    | none => rfl
    | some t => simp

/-- Parts that are checked one by one are checked without the values of strings. -/
theorem forM_map_forget {f g : List Token → Except ParseError Unit}
    (h : ∀ part, f (part.map forget) = g part) (parts : List (List Token)) :
    (parts.map (·.map forget)).forM f = parts.forM g := by
  rw [List.forM_eq_forM, List.forM_map]
  simp only [h]

theorem checkSimple_forget (ts : List Token) : checkSimple (ts.map forget) = checkSimple ts := by
  have hparts := splitOutside_forget (·.isWord "lambda") (·.isOp "=")
    (fun t => t.isWord_forget _) (fun t => t.isOp_forget _) ts
  unfold checkSimple
  simp only [hparts, ← List.map_dropLast, List.getLast?_map]
  generalize (splitOutside (·.isWord "lambda") (·.isOp "=") ts).dropLast = targets
  generalize (splitOutside (·.isWord "lambda") (·.isOp "=") ts).getLast? = last
  cases targets with
  | nil => rfl
  | cons target targets =>
    rcases last with _ | _ | ⟨value, values⟩
    -- What is said about a missing value only takes the line of the last token.
    · cases ts.getLast? <;> simp
    · cases ts.getLast? <;> simp
    · refine forM_map_forget (fun part => ?_) (target :: targets)
      rcases part with _ | ⟨t, part⟩
      · cases ts with
        | nil => rfl
        | cons t ts => simp only [List.map_nil, List.map_cons, Token.line_forget]
      · exact checkTarget_forget (t :: part)

theorem splitHeaderFrom_forget (nest : Int) (lambdas : Nat) (header ts : List Token) :
    splitHeaderFrom nest lambdas (header.map forget) (ts.map forget) =
      (splitHeaderFrom nest lambdas header ts).map (Prod.map (·.map forget) (·.map forget)) := by
  induction ts generalizing nest lambdas header with
  | nil => rfl
  | cons t ts ih =>
    simp only [List.map_cons, splitHeaderFrom, Token.opens_forget, Token.closes_forget,
      Token.isWord_forget, Token.isOp_forget]
    split_ifs
    · exact ih (nest + 1) lambdas (t :: header)
    · exact ih (nest - 1) lambdas (t :: header)
    · exact ih nest (lambdas + 1) (t :: header)
    · simp
    · exact ih nest (lambdas - 1) (t :: header)
    · exact ih nest lambdas (t :: header)

theorem checkHeader_forget (first : Token) (header : List Token) :
    checkHeader first (header.map forget) = checkHeader first header := by
  unfold checkHeader
  have hany : (outside (header.map forget)).any (·.isWord "in") =
      (outside header).any (·.isWord "in") := by
    rw [outside_forget, List.any_map]
    simp [Function.comp_def]
  rw [hany]
  cases header with
  | nil => rfl
  | cons t header => simp only [List.map_cons, List.isEmpty_cons, Token.line_forget]

theorem checkCompound_forget (first : Token) (rest : List Token) :
    checkCompound first (rest.map forget) = checkCompound first rest := by
  unfold checkCompound splitHeader?
  have hsplit := splitHeaderFrom_forget 0 0 [] rest
  rw [List.map_nil] at hsplit
  rw [hsplit]
  cases splitHeaderFrom 0 0 [] rest with
  | none => rfl
  | some parts =>
    obtain ⟨header, body⟩ := parts
    cases body with
    | nil => simp [checkHeader_forget]
    | cons t body =>
      have hword := Token.kind_and_text_forget .name compoundWords.contains rfl t
      have hbody := checkSimple_forget (t :: body)
      rw [List.map_cons] at hbody
      simp only [Option.map_some, Prod.map, List.map_cons, checkHeader_forget, hword, hbody,
        Token.line_forget]

theorem bne_name {kind : Kind} (h : kind ≠ .name) : (kind != .name) = true := by
  cases kind <;> first | rfl | exact absurd rfl h

theorem checkDefinition_forget (first : Token) (rest : List Token) :
    checkDefinition first (rest.map forget) = checkDefinition first rest := by
  match rest with
  | [] => rfl
  | name :: rest =>
    by_cases hkind : name.kind = .name
    · rw [List.map_cons, Token.forget_of_name hkind]
      cases rest with
      | nil => rfl
      | cons next rest => simp only [checkDefinition, List.map_cons, Token.isOp_forget, Token.line_forget]
    · have hother : (name.kind != .name) = true := bne_name hkind
      simp only [checkDefinition, List.map_cons, Token.kind_forget, hother, Bool.true_or, if_true]

theorem checkStatement_forget (ts : List Token) :
    checkStatement (ts.map forget) = checkStatement ts := by
  induction ts with
  | nil => rfl
  | cons first rest ih =>
    by_cases hkind : first.kind = .name
    · have hsimple := checkSimple_forget (first :: rest)
      rw [List.map_cons, Token.forget_of_name hkind] at hsimple ⊢
      rw [checkStatement.eq_def, checkStatement.eq_def (first :: rest)]
      simp only [checkDefinition_forget, checkCompound_forget, hsimple]
      cases rest with
      | nil => rfl
      | cons t rest =>
        simp only [List.map_cons, Token.isWord_forget] at ih ⊢
        rw [ih]
    · have hsimple := checkSimple_forget (first :: rest)
      rw [List.map_cons] at hsimple ⊢
      rw [checkStatement.eq_def, checkStatement.eq_def (first :: rest)]
      simp only [Token.kind_forget, bne_name hkind, if_true, hsimple]

/-- The values of strings do not matter to the checks. -/
theorem checkLine_forget (ts : List Token) : checkLine (ts.map forget) = checkLine ts := by
  have hparts := splitOutside_forget (fun _ => false) (·.isOp ";") (fun _ => rfl)
    (fun t => t.isOp_forget _) ts
  unfold checkLine
  rw [hparts]
  exact forM_map_forget checkStatement_forget _

end LiteralAudit.Python
