import LiteralAudit.Proofs.Literal.Python.Pieces
import LiteralAudit.Proofs.Number.Digits

/-!
# Integers in Python

The lexer takes an integer as one number, however it is spelled (`reaches_number`), and its value is the
decimal form of the integer (`numberValue_eq`). So a line that assigns an integer to a variable has one
literal (`literals_of_assignment`).
-/

namespace LiteralAudit.Python

open Number (Spelling)

variable {lx : Lexer} {after written t : Text} {n : Nat}

/-! ## Spellings -/

/-- Nothing in the spelling of an integer ends a number. -/
theorem continuesName_of_mem {b : UInt8} (h : Spelling n t) (hb : b ∈ t) : continuesName b = true := by
  have hall : ∀ b ∈ Number.spellingBytes, continuesName b = true := by decide
  exact hall b (h.mem_spellingBytes b hb)

/-- The value of an integer is its decimal form. -/
theorem numberValue_eq (h : Spelling n t) (hn : n < 2 ^ 63) : numberValue t = Text.ofNat n := by
  have hread : Number.readLiteral? (t.filter fun (b : UInt8) => b != '_') = some (n : Int) :=
    h.plain.readLiteral?_eq hn
  unfold numberValue
  dsimp only
  rw [hread]
  rfl

/-! ## Steps -/

/-- Nothing in front of the text goes on with a number. -/
def EndsNumber (after : Text) : Prop :=
  ∀ b ∈ after.head?, continuesName b = false ∧ (b == '.' || b == '+' || b == '-') = false

theorem numberSpan_append (hex : Bool) (hafter : EndsNumber after)
    (hwritten : ∀ b ∈ written, continuesName b = true) (done : Text) :
    numberSpan hex done (written ++ after) = (written.reverse ++ done, after) := by
  induction written generalizing done with
  | nil =>
    cases after with
    | nil => rfl
    | cons b rest =>
      obtain ⟨hname, hsign⟩ := hafter b rfl
      simp only [Bool.or_eq_false_iff] at hsign
      simp [numberSpan, hname, hsign]
  | cons b written ih =>
    obtain ⟨hb, hrest⟩ := List.forall_mem_cons.1 hwritten
    rw [List.cons_append, numberSpan, hb, Bool.true_or, if_pos rfl, ih hrest, List.reverse_cons,
      List.append_assoc]
    rfl

/-- A number of letters, digits and underscores. -/
theorem reaches_number (lx : Lexer) {b : UInt8} {rest : Text} (hb : Text.isDigit b = true)
    (hwritten : ∀ c ∈ b :: rest, continuesName c = true) (hafter : EndsNumber after) :
    (lx.reading (b :: rest ++ after)).Reaches
      ((lx.literal lx.line true (numberValue (b :: rest))).reading after) := by
  refine @Lexer.Reaches.step _ _ b (rest ++ after) rfl ?_
  have hhead : head b (rest ++ after) = .number := by
    obtain ⟨hlo, hhi⟩ := Text.toNat_of_isDigit hb
    rw [← @UInt8.ofNat_toNat b]
    interval_cases b.toNat <;> rfl
  have hspan := numberSpan_append (isHex (b :: (rest ++ after))) hafter hwritten []
  rw [List.append_nil] at hspan
  rw [step_eq, hhead]
  simp only [Lexer.readNumber, Lexer.rest_reading, List.cons_append] at hspan ⊢
  rw [hspan]
  simp only [List.reverse_reverse]
  rfl

/-! ## Assignments -/

/-- The variable to which integers are assigned. -/
def numberTarget : Identifier where
  text := "x"
  starts := ⟨'x', [], rfl, rfl⟩
  continues := by decide

/-- A line that assigns an integer to a variable, with what ends it. -/
def numberAssignment (t stop : Text) : Text := "x = " ++ t ++ stop

/-- An integer that is assigned to a variable is the one literal of the source. -/
theorem literals_of_assignment {stop : Text} (h : Spelling n t) (hn : n < 2 ^ 63)
    (hstop : stop = [] ∨ stop = "\n") :
    literals (numberAssignment t stop) = .ok [⟨Text.ofNat n, 1, true, "x"⟩] := by
  obtain ⟨d, b, rest, rfl, hb, hd⟩ := h.exists_cons
  have hdigit : Text.isDigit b = true := by
    cases hb with
    | numeral hd => interval_cases d <;> rfl
    | lower hten | upper hten => omega
  let named : Lexer := ({ rest := [] } : Lexer).record ⟨.name, "x", 0, 1⟩
  let equated : Lexer := named.record ⟨.op, "=", 0, 1⟩
  let last : Lexer := equated.literal 1 true (numberValue (b :: rest))
  have hspaced (after : Text) : EndsName ((' ' : UInt8) :: after) := by
    rintro _ ⟨⟩
    exact ⟨rfl, rfl⟩
  have hends : EndsNumber stop := by
    rcases hstop with rfl | rfl
    · rintro _ ⟨⟩
    · rintro _ ⟨⟩
      exact ⟨rfl, rfl⟩
  have hread : ({ rest := numberAssignment (b :: rest) stop } : Lexer).Reaches (last.reading stop) := by
    refine (@reaches_name { rest := [] } _ numberTarget (hspaced _)).trans ?_
    refine (@reaches_blank named _).trans ?_
    refine (@reaches_op named _ _ _ rfl (by decide)).trans ?_
    refine (@reaches_blank equated _).trans ?_
    exact reaches_number equated hdigit (fun c => continuesName_of_mem h) hends
  have hchecked : checkLine last.statement.reverse = .ok () := rfl
  have hliterals : last.literals.reverse = [⟨numberValue (b :: rest), 1, true, "x"⟩] := rfl
  rw [← numberValue_eq h hn, ← hliterals]
  rcases hstop with rfl | rfl
  · exact literals_of_checked hread rfl hchecked
  · have hline := hread.trans (reaches_lineBreak rfl hchecked [])
    exact @literals_of_checked last.nextLine _ hline rfl rfl

end LiteralAudit.Python
