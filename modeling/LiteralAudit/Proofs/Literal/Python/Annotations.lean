import LiteralAudit.Proofs.Literal.Python.CheckedStatements
import LiteralAudit.Proofs.Literal.Python.Pieces
import Mathlib

/-!
# Bindings behind annotations

An **annotation** is a name, a dotted name or a generic type with its arguments. The lexer reads it token
by token (`reaches_typeHint`), and its brackets are nested (`TypeHint.nested_tokens`). The binding of a
string is read from the four tokens before it, where the annotation of a name gets in the way
(`binding_annotated`).
-/

namespace LiteralAudit.Python

mutual

/-- The type in an annotation: a name, a name of a module or class, or a generic type of others. -/
inductive TypeHint where
  | name (n : Variable)
  | member (of : TypeHint) (n : Variable)
  | generic (of : TypeHint) (args : Arguments)

/-- The types that a generic type is given. -/
inductive Arguments where
  | one (a : TypeHint)
  | more (a : TypeHint) (args : Arguments)

end

mutual

def TypeHint.text : TypeHint → Text
  | .name n => n.text
  | .member of n => of.text ++ "." ++ n.text
  | .generic of args => of.text ++ "[" ++ args.text ++ "]"

def Arguments.text : Arguments → Text
  | .one a => a.text
  | .more a args => a.text ++ ", " ++ args.text

end

/-- The name that a string is bound to behind an annotation of `target`. -/
def TypeHint.binding (inBrackets : Bool) (target : Text) : TypeHint → Text
  | .name n => if inBrackets then n.text else target
  | .member _ n => n.text
  | .generic _ _ => []

mutual

/-- The tokens of an annotation before which `depth` brackets are open. -/
def TypeHint.tokens (depth line : Nat) : TypeHint → List Token
  | .name n => [⟨.name, n.text, depth, line⟩]
  | .member of n => of.tokens depth line ++ [⟨.op, ".", depth, line⟩, ⟨.name, n.text, depth, line⟩]
  | .generic of args =>
    of.tokens depth line ++
      (⟨.op, "[", depth + 1, line⟩ :: args.tokens (depth + 1) line ++ [⟨.op, "]", depth, line⟩])

def Arguments.tokens (depth line : Nat) : Arguments → List Token
  | .one a => a.tokens depth line
  | .more a args => a.tokens depth line ++ (⟨.op, ",", depth, line⟩ :: args.tokens depth line)

end

/-! ## Reading an annotation -/

variable {lx : Lexer} {after : Text}

theorem endsName_cons {b : UInt8} (hname : continuesName b = false) (hquote : isQuote b = false)
    (after : Text) : EndsName (b :: after) := by
  intro c hc
  obtain rfl : b = c := Option.some.inj hc
  exact ⟨hname, hquote⟩

theorem isDigit_of_startsName {b : UInt8} (h : startsName b = true) : Text.isDigit b = false := by
  have hall : ∀ n < 256, startsName (UInt8.ofNat n) = true → Text.isDigit (UInt8.ofNat n) = false := by
    decide +kernel
  have hb := hall b.toNat b.toNat_lt
  rw [UInt8.ofNat_toNat] at hb
  exact hb h

/-- A dot before a name is an operator. -/
theorem reaches_dot (n : Identifier) (hafter : EndsName after) :
    (lx.reading (('.' : UInt8) :: (n.text ++ after))).Reaches
      (((lx.record ⟨.op, ".", lx.opened.length, lx.line⟩).record
        ⟨.name, n.text, lx.opened.length, lx.line⟩).reading after) := by
  refine .trans ?_ (reaches_name n hafter)
  obtain ⟨b, rest, htext, hstarts⟩ := n.starts
  rw [htext, List.cons_append]
  refine reaches_op ?_ fun hmem => ?_
  · have hdigit := isDigit_of_startsName hstarts
    simp only [head, List.head?_cons, Option.any_some, hdigit]
    rfl
  · have hlong : ∀ op ∈ longOps, op.head? ≠ some ('.' : UInt8) := by decide
    exact hlong _ hmem rfl

mutual

theorem reaches_typeHint (a : TypeHint) (lx : Lexer) {after : Text} (hafter : EndsName after) :
    (lx.reading (a.text ++ after)).Reaches
      ((lx.recordAll (a.tokens lx.opened.length lx.line)).reading after) := by
  cases a with
  | name n => exact reaches_name n.toIdentifier hafter
  | member of n =>
    have htext : (TypeHint.member of n).text ++ after =
        of.text ++ (('.' : UInt8) :: (n.text ++ after)) := by
      have hdot : Text.ofString "." = [('.' : UInt8)] := rfl
      simp [TypeHint.text, hdot]
    rw [htext, TypeHint.tokens, Lexer.recordAll_append]
    refine (reaches_typeHint of lx (endsName_cons (by decide) (by decide) _)).trans ?_
    have hdot := @reaches_dot (lx.recordAll (of.tokens lx.opened.length lx.line)) after
      n.toIdentifier hafter
    rwa [Lexer.opened_recordAll, Lexer.line_recordAll] at hdot
  | generic of args =>
    have htext : (TypeHint.generic of args).text ++ after =
        of.text ++ (('[' : UInt8) :: (args.text ++ ((']' : UInt8) :: after))) := by
      have hopen : Text.ofString "[" = [('[' : UInt8)] := rfl
      have hclose : Text.ofString "]" = [(']' : UInt8)] := rfl
      simp [TypeHint.text, hopen, hclose]
    rw [htext, TypeHint.tokens, Lexer.recordAll_append]
    refine (reaches_typeHint of lx (endsName_cons (by decide) (by decide) _)).trans ?_
    refine (reaches_bracket rfl).trans ?_
    refine (reaches_arguments args _ (endsName_cons (by decide) (by decide) _)).trans ?_
    refine (@reaches_closingBracket _ _ _ ⟨'[', lx.line⟩ lx.opened rfl ?_ rfl).trans ?_
    · simp
    · rw [Lexer.withOpened_recordAll, Lexer.withOpened_record,
        Lexer.withOpened_eq_self (Lexer.opened_recordAll _)]
      simp only [Lexer.opened_record, Lexer.line_record, Lexer.opened_recordAll, Lexer.line_recordAll,
        Lexer.opened_withOpened, Lexer.line_withOpened, List.length_cons]
      rw [Lexer.recordAll_append (lx.recordAll _)]
      exact .refl

theorem reaches_arguments (args : Arguments) (lx : Lexer) {after : Text} (hafter : EndsName after) :
    (lx.reading (args.text ++ after)).Reaches
      ((lx.recordAll (args.tokens lx.opened.length lx.line)).reading after) := by
  cases args with
  | one a => exact reaches_typeHint a lx hafter
  | more a args =>
    have htext : (Arguments.more a args).text ++ after =
        a.text ++ ((',' : UInt8) :: (' ' : UInt8) :: (args.text ++ after)) := by
      have hcomma : Text.ofString ", " = [(',' : UInt8), (' ' : UInt8)] := rfl
      simp [Arguments.text, hcomma]
    rw [htext, Arguments.tokens, Lexer.recordAll_append]
    refine (reaches_typeHint a lx (endsName_cons (by decide) (by decide) _)).trans ?_
    refine (reaches_op rfl (by decide)).trans ?_
    refine (reaches_blank _ _).trans ?_
    have hargs := reaches_arguments args ((lx.recordAll (a.tokens lx.opened.length lx.line)).record
      ⟨.op, ",", lx.opened.length, lx.line⟩) hafter
    simp only [Lexer.opened_record, Lexer.line_record, Lexer.opened_recordAll, Lexer.line_recordAll]
      at hargs ⊢
    exact hargs

end

/-! ## The tokens of an annotation -/

mutual

theorem TypeHint.nested_tokens (a : TypeHint) (depth line : Nat) : Nested (a.tokens depth line) := by
  cases a with
  | name n => exact .plain rfl
  | member of n => exact (of.nested_tokens depth line).append (Nested.plain_append rfl (.plain rfl))
  | generic of args =>
    exact (of.nested_tokens depth line).append (.group rfl (args.nested_tokens (depth + 1) line))

theorem Arguments.nested_tokens (args : Arguments) (depth line : Nat) :
    Nested (args.tokens depth line) := by
  cases args with
  | one a => exact a.nested_tokens depth line
  | more a args =>
    exact (a.nested_tokens depth line).append
      (Nested.plain_append rfl (args.nested_tokens depth line))

end

mutual

theorem TypeHint.quiet_of_mem_tokens (a : TypeHint) (depth line : Nat) {t : Token}
    (ht : t ∈ a.tokens depth line) : t.Quiet := by
  cases a with
  | name n =>
    obtain rfl := List.mem_singleton.1 ht
    exact quiet_of_free rfl n.free
  | member of n =>
    rcases List.mem_append.1 ht with ht | ht
    · exact of.quiet_of_mem_tokens depth line ht
    · rcases List.mem_pair.1 ht with rfl | rfl
      · exact ⟨rfl, rfl, rfl⟩
      · exact quiet_of_free rfl n.free
  | generic of args =>
    simp only [TypeHint.tokens, List.mem_append, List.mem_cons, List.not_mem_nil, or_false] at ht
    rcases ht with ht | (rfl | ht) | rfl
    · exact of.quiet_of_mem_tokens depth line ht
    · exact ⟨rfl, rfl, rfl⟩
    · exact args.quiet_of_mem_tokens (depth + 1) line ht
    · exact ⟨rfl, rfl, rfl⟩

theorem Arguments.quiet_of_mem_tokens (args : Arguments) (depth line : Nat) {t : Token}
    (ht : t ∈ args.tokens depth line) : t.Quiet := by
  cases args with
  | one a => exact a.quiet_of_mem_tokens depth line ht
  | more a args =>
    simp only [Arguments.tokens, List.mem_append, List.mem_cons] at ht
    rcases ht with ht | rfl | ht
    · exact a.quiet_of_mem_tokens depth line ht
    · exact ⟨rfl, rfl, rfl⟩
    · exact args.quiet_of_mem_tokens depth line ht

end

/-! ## The binding behind an annotation -/

/-- The tokens of a name with an annotation. -/
def annotatedTokens (name : Text) (hint? : Option TypeHint) (depth line : Nat) : List Token :=
  ⟨.name, name, depth, line⟩ ::
    (hint?.map fun a => ⟨.op, ":", depth, line⟩ :: a.tokens depth line).getD []

/-- The name that a string is bound to behind `target`, which may have an annotation. -/
def annotatedBinding (inBrackets : Bool) (target : Text) (hint? : Option TypeHint) : Text :=
  (hint?.map (·.binding inBrackets target)).getD target

/-- Behind an annotation, the string is bound as the annotation says; `depth` brackets are open. -/
theorem binding_annotated (h : ∀ t ∈ lx.recent.head?, t.isOp ":" = false) (target : Text)
    (hint? : Option TypeHint) (depth line : Nat) :
    ((lx.recordAll (annotatedTokens target hint? depth line)).record
        ⟨.op, "=", depth, line⟩).binding = annotatedBinding (depth != 0) target hint? := by
  cases hint? with
  | none => exact binding_of_name h target depth line depth line
  | some a =>
    cases a with
    | name n =>
      refine (binding_of_colon lx target n.text depth line).trans ?_
      cases depth <;> rfl
    | member of n =>
      have hsplit : lx.recordAll (annotatedTokens target (some (.member of n)) depth line) =
          ((lx.recordAll (annotatedTokens target (some of) depth line)).record
            ⟨.op, ".", depth, line⟩).record ⟨.name, n.text, depth, line⟩ := by
        simp [annotatedTokens, TypeHint.tokens, Lexer.recordAll]
      rw [hsplit]
      refine binding_of_name (fun t ht => ?_) n.text depth line depth line
      obtain rfl : _ = t := Option.some.inj ht
      rfl
    | generic of args =>
      have hsplit : lx.recordAll (annotatedTokens target (some (.generic of args)) depth line) =
          (lx.recordAll (annotatedTokens target (some of) depth line ++
            ⟨.op, "[", depth + 1, line⟩ :: args.tokens (depth + 1) line)).record
              ⟨.op, "]", depth, line⟩ := by
        simp [annotatedTokens, TypeHint.tokens, Lexer.recordAll]
      rw [hsplit]
      exact binding_of_op _ "]" depth line depth line

end LiteralAudit.Python
