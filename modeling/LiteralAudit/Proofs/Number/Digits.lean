import LiteralAudit.Number.Integer
import LiteralAudit.Proofs.Text.Utf8
import Mathlib

/-!
# Numbers written in decimal

`Text.ofNat` writes a number and `Number.readDigits?` reads it again, also behind zeros
(`readDigits?_ofNat`). A number takes no more digits than the power of ten above it says
(`length_ofNat_le_iff`). Programs may write it in other bases and with underscores, and it is read again
from each of these spellings (`Spelling.readLiteral?_eq`).
-/

namespace LiteralAudit

namespace Text

theorem ofString_append (s t : String) : ofString (s ++ t) = ofString s ++ ofString t := by
  simp [ofString]

/-- A digit is one byte. -/
theorem ofNat_of_lt {n : Nat} (h : n < 10) : ofNat n = [UInt8.ofNat (48 + n)] := by
  interval_cases n <;> rfl

/-- The last digit stands behind the others. -/
theorem ofNat_of_ge {n : Nat} (h : 10 ≤ n) : ofNat n = ofNat (n / 10) ++ ofNat (n % 10) := by
  have hlast : (n % 10).repr = String.singleton (n % 10).digitChar :=
    Nat.repr_of_lt (Nat.mod_lt n (by decide))
  show ofString n.repr = ofString (n / 10).repr ++ ofString (n % 10).repr
  rw [Nat.repr_of_ge h, ofString_append, hlast]

theorem length_ofNat_of_lt {n : Nat} (h : n < 10) : (ofNat n).length = 1 := by
  rw [ofNat_of_lt h, List.length_singleton]

theorem length_ofNat_of_ge {n : Nat} (h : 10 ≤ n) : (ofNat n).length = (ofNat (n / 10)).length + 1 := by
  rw [ofNat_of_ge h, List.length_append, length_ofNat_of_lt (Nat.mod_lt n (by decide))]

theorem length_ofNat_pos (n : Nat) : 0 < (ofNat n).length := by
  by_cases h : n < 10
  · rw [length_ofNat_of_lt h]
    exact Nat.one_pos
  · rw [length_ofNat_of_ge (Nat.not_lt.1 h)]
    exact Nat.succ_pos _

theorem length_ofNat_le_iff {n width : Nat} (hw : 0 < width) :
    (ofNat n).length ≤ width ↔ n < 10 ^ width := by
  induction width, hw using Nat.le_induction generalizing n with
  | base =>
    by_cases h : n < 10
    · simp [length_ofNat_of_lt h, h]
    · have hpos := length_ofNat_pos (n / 10)
      rw [length_ofNat_of_ge (Nat.not_lt.1 h)]
      omega
  | succ width hw ih =>
    by_cases h : n < 10
    · rw [length_ofNat_of_lt h]
      have hpow : 10 ^ 1 ≤ 10 ^ (width + 1) := Nat.pow_le_pow_right (by decide) (by omega)
      omega
    · rw [length_ofNat_of_ge (Nat.not_lt.1 h), Nat.add_le_add_iff_right, ih, pow_succ]
      omega

theorem isDigit_of_mem_ofNat {n : Nat} {b : UInt8} (h : b ∈ ofNat n) : isDigit b = true := by
  induction n using Nat.strongRecOn with
  | ind n ih =>
    by_cases hn : n < 10
    · rw [ofNat_of_lt hn, List.mem_singleton] at h
      subst h
      interval_cases n <;> rfl
    · rw [ofNat_of_ge (Nat.not_lt.1 hn)] at h
      obtain h | h := List.mem_append.1 h
      · exact ih (n / 10) (by omega) h
      · exact ih (n % 10) (by omega) h

/-- The code of a digit. -/
theorem toNat_of_isDigit {b : UInt8} (h : isDigit b = true) : 48 ≤ b.toNat ∧ b.toNat ≤ 57 := by
  rw [isDigit, Bool.and_eq_true, decide_eq_true_iff, decide_eq_true_iff, UInt8.le_iff_toNat_le,
    UInt8.le_iff_toNat_le] at h
  exact h

theorem isAscii_of_isDigit {b : UInt8} (h : isDigit b = true) : b.toNat < 0x80 := by
  obtain ⟨-, hle⟩ := toNat_of_isDigit h
  omega

theorem isAscii_ofNat (n : Nat) : (ofNat n).IsAscii :=
  fun _ hb => isAscii_of_isDigit (isDigit_of_mem_ofNat hb)

theorem isAscii_ofInt (n : Int) : (ofInt n).IsAscii := by
  cases n with
  | ofNat k => exact isAscii_ofNat k
  | negSucc k => exact .cons (by decide) (isAscii_ofNat (k + 1))

end Text

namespace Number

/-- One more digit. -/
theorem readDigits?_concat {base : Nat} {t : Text} {b : UInt8} {n d : Nat}
    (h : readDigits? base t = some n) (hb : digitValue? b = some d) (hd : d < base) :
    readDigits? base (t ++ [b]) = some (n * base + d) := by
  unfold readDigits? at h ⊢
  rw [List.foldl_append, h, List.foldl_cons, List.foldl_nil]
  simp only [hb, if_pos hd]

theorem readDigits?_append_digit {t : Text} {n d : Nat} (h : readDigits? 10 t = some n) (hd : d < 10) :
    readDigits? 10 (t ++ Text.ofNat d) = some (n * 10 + d) := by
  have hvalue : digitValue? (UInt8.ofNat (48 + d)) = some d := by
    interval_cases d <;> rfl
  rw [Text.ofNat_of_lt hd]
  exact readDigits?_concat h hvalue hd

theorem readDigits?_zeros (k : Nat) : readDigits? 10 (List.replicate k ('0' : UInt8)) = some 0 := by
  induction k with
  | zero => rfl
  | succ k ih =>
    rw [List.replicate_succ']
    exact readDigits?_append_digit (d := 0) ih (by decide)

/-- A number is read as it was written. -/
theorem readDigits?_ofNat (k n : Nat) :
    readDigits? 10 (List.replicate k ('0' : UInt8) ++ Text.ofNat n) = some n := by
  induction n using Nat.strongRecOn with
  | ind n ih =>
    by_cases hn : n < 10
    · simpa using readDigits?_append_digit (readDigits?_zeros k) hn
    · rw [Text.ofNat_of_ge (Nat.not_lt.1 hn), ← List.append_assoc,
        readDigits?_append_digit (ih (n / 10) (by omega)) (Nat.mod_lt n (by decide))]
      congr 1
      omega

theorem splitSign_ofNat (n : Nat) : splitSign (Text.ofNat n) = (false, Text.ofNat n) := by
  obtain ⟨b, t, hn⟩ := List.exists_cons_of_length_pos (Text.length_ofNat_pos n)
  have hdigit : Text.isDigit b = true := Text.isDigit_of_mem_ofNat (n := n) (by simp [hn])
  have hminus : (b == ('-' : UInt8)) = false := by
    rw [beq_eq_false_iff_ne]
    rintro rfl
    cases hdigit
  have hplus : (b == ('+' : UInt8)) = false := by
    rw [beq_eq_false_iff_ne]
    rintro rfl
    cases hdigit
  simp [hn, splitSign, hminus, hplus]

theorem ofNat_isEmpty (n : Nat) : (Text.ofNat n).isEmpty = false := by
  obtain ⟨b, t, hn⟩ := List.exists_cons_of_length_pos (Text.length_ofNat_pos n)
  rw [hn]
  rfl

theorem readDecimal?_ofNat (n : Nat) :
    readDecimal? (Text.ofNat n) = signed? false n := by
  have hread : readDigits? 10 (Text.ofNat n) = some n := readDigits?_ofNat 0 n
  simp [readDecimal?, splitSign_ofNat, ofNat_isEmpty, hread]

theorem fits64_natCast {n : Nat} (h : n < 2 ^ 63) : fits64 (n : Int) = true := by
  refine Bool.and_eq_true_iff.2 ⟨decide_eq_true ?_, decide_eq_true ?_⟩
  · exact (show minInt64 ≤ 0 by decide).trans (Int.natCast_nonneg n)
  · show (n : Int) ≤ 9223372036854775807
    omega

/-- A number that fits is read from its decimal form. -/
theorem readDecimal?_ofNat_of_lt {n : Nat} (h : n < 2 ^ 63) :
    readDecimal? (Text.ofNat n) = some (n : Int) := by
  rw [readDecimal?_ofNat]
  exact if_pos (fits64_natCast h)

end Number

end LiteralAudit

/-!
## Integers as programs write them

An integer literal is a number in decimal, or in hexadecimal, octal or binary behind a prefix, and single
underscores may stand between its digits and behind the prefix (`Spelling`). Whatever the spelling, the
number is read from it (`Spelling.readLiteral?_eq`), and also when the underscores are left out
(`Spelling.plain`).
-/

namespace LiteralAudit.Number

/-- An underscore as a byte. -/
def underscore : UInt8 := '_'

/-- A zero as a byte. -/
def zero : UInt8 := '0'

/-- A byte writes a digit, which from ten on is a letter. -/
inductive DigitByte : Nat → UInt8 → Prop where
  | numeral {d : Nat} (hd : d < 10) : DigitByte d (UInt8.ofNat (48 + d))
  | lower {d : Nat} (hten : 10 ≤ d) (hd : d < 16) : DigitByte d (UInt8.ofNat (87 + d))
  | upper {d : Nat} (hten : 10 ≤ d) (hd : d < 16) : DigitByte d (UInt8.ofNat (55 + d))

/-- A text writes digits of a base, from left to right, with at most one underscore between two of
them. -/
inductive SpelledDigits (base : Nat) : List Nat → Text → Prop where
  | last {d : Nat} {b : UInt8} (h : DigitByte d b) (hd : d < base) : SpelledDigits base [d] [b]
  | next {d : Nat} {b : UInt8} {ds : List Nat} {sep t : Text} (h : DigitByte d b) (hd : d < base)
      (hsep : sep = [] ∨ sep = [underscore]) (ht : SpelledDigits base ds t) :
      SpelledDigits base (d :: ds) (b :: (sep ++ t))

/-- The letters of base prefixes. -/
def baseLetters : List (UInt8 × Nat) :=
  [('x', 16), ('X', 16), ('o', 8), ('O', 8), ('b', 2), ('B', 2)]

theorem eq_of_mem_baseLetters {letter : UInt8} {base : Nat} (h : (letter, base) ∈ baseLetters) :
    letter = 'x' ∧ base = 16 ∨ letter = 'X' ∧ base = 16 ∨ letter = 'o' ∧ base = 8 ∨
      letter = 'O' ∧ base = 8 ∨ letter = 'b' ∧ base = 2 ∨ letter = 'B' ∧ base = 2 := by
  simpa [baseLetters] using h

theorem base_le : ∀ p ∈ baseLetters, p.2 ≤ 10 ∨ (p.2 == 16) = true := by decide

/-- The bytes of integer literals: digits, the letters of prefixes, and the underscore. -/
def spellingBytes : Text := "0123456789abcdefABCDEFxXoO_"

/-- A text writes a number as an integer literal: in decimal without leading zeros, or in another base
behind its prefix. -/
inductive Spelling : Nat → Text → Prop where
  | decimal {ds : List Nat} {t : Text} (h : SpelledDigits 10 ds t)
      (hzero : t.head? = some zero → t = [zero]) : Spelling (Nat.ofDigits 10 ds.reverse) t
  | prefixed {base : Nat} {letter : UInt8} {ds : List Nat} {sep t : Text}
      (hbase : (letter, base) ∈ baseLetters) (hsep : sep = [] ∨ sep = [underscore])
      (h : SpelledDigits base ds t) :
      Spelling (Nat.ofDigits base ds.reverse) (zero :: letter :: (sep ++ t))

/-! ## Digits -/

theorem DigitByte.value {d : Nat} {b : UInt8} (h : DigitByte d b) : digitValue? b = some d := by
  cases h <;> interval_cases d <;> rfl

theorem DigitByte.ne_underscore {d : Nat} {b : UInt8} (h : DigitByte d b) : (b == underscore) = false := by
  cases h <;> interval_cases d <;> rfl

theorem DigitByte.mem_spellingBytes {d : Nat} {b : UInt8} (h : DigitByte d b) : b ∈ spellingBytes := by
  cases h <;> interval_cases d <;> decide

/-- Digits that underscores may follow are digits of numbers, or of hexadecimal ones. -/
theorem DigitByte.isDigit {d : Nat} {b : UInt8} (h : DigitByte d b) {hex : Bool}
    (hd : d < 10 ∨ hex = true) :
    (Text.isDigit b || hex && (Text.hexValue? b).isSome) = true := by
  cases h with
  | numeral hd => interval_cases d <;> rfl
  | lower hten hlt | upper hten hlt =>
    obtain hd | rfl := hd
    · omega
    · interval_cases d <;> rfl

namespace SpelledDigits

variable {base : Nat} {ds : List Nat} {t : Text}

theorem exists_cons (h : SpelledDigits base ds t) :
    ∃ d b rest, t = b :: rest ∧ DigitByte d b ∧ d < base := by
  cases h with
  | last h hd => exact ⟨_, _, _, rfl, h, hd⟩
  | next h hd => exact ⟨_, _, _, rfl, h, hd⟩

theorem eq_of_singleton {b : UInt8} (h : SpelledDigits base ds [b]) : ∃ d, ds = [d] ∧ DigitByte d b := by
  generalize ht : [b] = t at h
  cases h with
  | last h =>
    obtain ⟨rfl, -⟩ := List.cons.inj ht
    exact ⟨_, rfl, h⟩
  | next _ _ _ ht' =>
    obtain ⟨_, _, _, rfl, -⟩ := ht'.exists_cons
    simp at ht

/-- Nothing but digits and underscores is written. -/
theorem of_mem (h : SpelledDigits base ds t) {b : UInt8} (hb : b ∈ t) :
    b = underscore ∨ ∃ d, DigitByte d b ∧ d < base := by
  induction h with
  | last h hd =>
    obtain rfl := List.mem_singleton.1 hb
    exact .inr ⟨_, h, hd⟩
  | next h hd hsep _ ih =>
    obtain rfl | hb := List.mem_cons.1 hb
    · exact .inr ⟨_, h, hd⟩
    · obtain hb | hb := List.mem_append.1 hb
      · obtain rfl | rfl := hsep
        · cases hb
        · exact .inl (List.mem_singleton.1 hb)
      · exact ih hb

/-- What is left without the underscores. -/
theorem plain (h : SpelledDigits base ds t) : SpelledDigits base ds (t.filter (· != underscore)) := by
  induction h with
  | last h hd =>
    rw [List.filter_cons_of_pos (by simpa using h.ne_underscore)]
    exact .last h hd
  | @next d b ds sep t h hd hsep ht ih =>
    have hkept : (b :: (sep ++ t)).filter (· != underscore) = b :: ([] ++ t.filter (· != underscore)) := by
      rw [List.filter_cons_of_pos (by simpa using h.ne_underscore), List.filter_append]
      obtain rfl | rfl := hsep <;> rfl
    rw [hkept]
    exact .next h hd (.inl rfl) ih

/-- The digits are read behind those that have been read before. -/
theorem readDigits?_append (h : SpelledDigits base ds t) {front : Text} {n : Nat}
    (hfront : readDigits? base front = some n) :
    readDigits? base (front ++ t.filter (· != underscore)) =
      some (ds.foldl (fun n d => n * base + d) n) := by
  induction h generalizing front n with
  | last h hd =>
    rw [List.filter_cons_of_pos (by simpa using h.ne_underscore)]
    exact readDigits?_concat hfront h.value hd
  | @next d b ds sep t h hd hsep ht ih =>
    have hsplit : (sep ++ t).filter (· != underscore) = t.filter (· != underscore) := by
      rw [List.filter_append]
      obtain rfl | rfl := hsep <;> rfl
    rw [List.filter_cons_of_pos (by simpa using h.ne_underscore), hsplit, List.append_cons]
    exact ih (readDigits?_concat hfront h.value hd)

theorem readDigits?_eq (h : SpelledDigits base ds t) :
    readDigits? base (t.filter (· != underscore)) = some (Nat.ofDigits base ds.reverse) := by
  have hvalue : Nat.ofDigits base ds.reverse = ds.foldl (fun n d => n * base + d) 0 := by
    rw [Nat.ofDigits_eq_foldr, List.foldr_reverse]
    congr 1
    funext n d
    simp [Nat.mul_comm, Nat.add_comm]
  have hnone : readDigits? base [] = some 0 := rfl
  rw [hvalue]
  exact h.readDigits?_append hnone

/-- No underscore is out of place. -/
theorem underscoresFrom_eq (h : SpelledDigits base ds t) {hex : Bool} (hbase : base ≤ 10 ∨ hex = true)
    (last : Option Bool) : underscoresFrom hex last t = true := by
  have hfirst : ∀ {d : Nat} {b : UInt8} (rest : Text) (last : Option Bool), DigitByte d b → d < base →
      underscoresFrom hex last (b :: rest) = underscoresFrom hex (some true) rest := by
    intro d b rest last h hd
    have hdigit := h.isDigit (hbase.imp_left fun hle => hd.trans_le hle)
    show (if (b == underscore) = true then _ else if _ then _ else _) = _
    rw [h.ne_underscore, if_neg Bool.false_ne_true, if_pos hdigit]
  induction h generalizing last with
  | last h hd =>
    rw [hfirst _ _ h hd]
    rfl
  | next h hd hsep ht ih =>
    rw [hfirst _ _ h hd]
    obtain rfl | rfl := hsep
    · exact ih _
    · exact ih (some false)

end SpelledDigits

/-! ## Whole literals -/

namespace Spelling

variable {n : Nat} {t : Text}

/-- A literal starts with a digit. -/
theorem exists_cons (h : Spelling n t) : ∃ d b rest, t = b :: rest ∧ DigitByte d b ∧ d < 10 := by
  cases h with
  | decimal h => exact h.exists_cons
  | prefixed => exact ⟨0, zero, _, rfl, .numeral (by decide), by decide⟩

theorem mem_spellingBytes (h : Spelling n t) : ∀ b ∈ t, b ∈ spellingBytes := by
  have hdigits {base : Nat} {ds : List Nat} {u : Text} (hu : SpelledDigits base ds u) :
      ∀ b ∈ u, b ∈ spellingBytes := by
    intro b hb
    obtain rfl | ⟨d, hd, -⟩ := hu.of_mem hb
    · decide
    · exact hd.mem_spellingBytes
  cases h with
  | decimal h => exact hdigits h
  | @prefixed base letter ds sep u hbase hsep h =>
    have hletters : ∀ p ∈ baseLetters, p.1 ∈ spellingBytes := by decide
    have hsep' : ∀ b ∈ sep, b ∈ spellingBytes := by
      obtain rfl | rfl := hsep
      · exact List.forall_mem_nil _
      · exact List.forall_mem_singleton.2 (by decide)
    have hrest := List.forall_mem_append.2 ⟨hsep', hdigits h⟩
    exact List.forall_mem_cons.2 ⟨by decide, List.forall_mem_cons.2 ⟨hletters _ hbase, hrest⟩⟩

theorem isAscii (h : Spelling n t) : t.IsAscii := fun b hb => by
  have hall : ∀ b ∈ spellingBytes, b.toNat < 0x80 := by decide
  exact hall b (h.mem_spellingBytes b hb)

/-- Digits behind a base prefix, or without one, are a literal. -/
theorem literalValue?_of_splitBase {base : Nat} {digits : Text} (hsign : splitSign t = (false, t))
    (hne : t ≠ []) (hbase : splitBase t = (base, digits))
    (hread : readDigits? base (digits.filter (· != underscore)) = some n)
    (hseparate : underscoresSeparate t = true) : literalValue? t = some (n : Int) := by
  have hempty : t.isEmpty = false := List.isEmpty_eq_false_iff.2 hne
  have hread' : readDigits? base (digits.filter (· != '_')) = some n := hread
  unfold literalValue?
  rw [hsign]
  dsimp only
  rw [hempty, hbase]
  dsimp only
  rw [hread', hseparate]
  simp

theorem splitSign_eq (h : Spelling n t) : splitSign t = (false, t) := by
  obtain ⟨d, b, rest, rfl, hb, hd⟩ := h.exists_cons
  cases hb with
  | numeral hd => interval_cases d <;> rfl
  | lower hten | upper hten => omega

theorem splitBase_of_ne_zero {b : UInt8} (hb : (b == zero) = false) (rest : Text) :
    splitBase (b :: rest) = (10, b :: rest) := by
  have hb' : ¬(b == ('0' : Char).toUInt8) = true := Bool.eq_false_iff.1 hb
  rcases rest with _ | ⟨x, _ | ⟨d, rest⟩⟩
  all_goals exact if_neg hb'

theorem underscoresSeparate_of_ne_zero {b : UInt8} (hb : (b == zero) = false) (rest : Text) :
    underscoresSeparate (b :: rest) = underscoresFrom false none (b :: rest) := by
  cases rest with
  | nil => rfl
  | cons x rest =>
    unfold underscoresSeparate
    dsimp only
    rw [show (b == ('0' : Char).toUInt8) = false from hb, Bool.false_and, if_neg Bool.false_ne_true]

/-- A base prefix is told from the digits behind it. -/
theorem splitBase_prefixed {base : Nat} {letter b : UInt8} (hbase : (letter, base) ∈ baseLetters)
    (rest : Text) : splitBase (zero :: letter :: b :: rest) = (base, b :: rest) := by
  obtain ⟨rfl, rfl⟩ | ⟨rfl, rfl⟩ | ⟨rfl, rfl⟩ | ⟨rfl, rfl⟩ | ⟨rfl, rfl⟩ | ⟨rfl, rfl⟩ :=
    eq_of_mem_baseLetters hbase
  all_goals rfl

theorem underscoresSeparate_prefixed {base : Nat} {letter : UInt8} (hbase : (letter, base) ∈ baseLetters)
    (rest : Text) :
    underscoresSeparate (zero :: letter :: rest) = underscoresFrom (base == 16) (some true) rest := by
  obtain ⟨rfl, rfl⟩ | ⟨rfl, rfl⟩ | ⟨rfl, rfl⟩ | ⟨rfl, rfl⟩ | ⟨rfl, rfl⟩ | ⟨rfl, rfl⟩ :=
    eq_of_mem_baseLetters hbase
  all_goals rfl

/-- A literal that starts with a zero in decimal is the zero. -/
theorem eq_zero_of_head {ds : List Nat} {b : UInt8} {rest : Text} (h : SpelledDigits 10 ds (b :: rest))
    (hzero : (b :: rest).head? = some zero → b :: rest = [zero]) (hb : (b == zero) = true) :
    b :: rest = [zero] ∧ ds = [0] := by
  obtain rfl : b = zero := beq_iff_eq.1 hb
  obtain rfl : rest = [] := (List.cons.inj (hzero rfl)).2
  obtain ⟨d, rfl, hd⟩ := h.eq_of_singleton
  have hvalue := hd.value
  cases hvalue
  exact ⟨rfl, rfl⟩

/-- No underscore of a literal is out of place. -/
theorem underscoresSeparate_eq (h : Spelling n t) : underscoresSeparate t = true := by
  cases h with
  | @decimal ds t h hzero =>
    obtain ⟨d, b, rest, rfl, hb, hd⟩ := h.exists_cons
    cases hb0 : b == zero with
    | true =>
      rw [(eq_zero_of_head h hzero hb0).1]
      rfl
    | false =>
      rw [underscoresSeparate_of_ne_zero hb0]
      exact h.underscoresFrom_eq (.inl le_rfl) none
  | @prefixed base letter ds sep t hbase hsep h =>
    rw [underscoresSeparate_prefixed hbase]
    obtain rfl | rfl := hsep
    · exact h.underscoresFrom_eq (base_le _ hbase) _
    · exact h.underscoresFrom_eq (base_le _ hbase) (some false)

/-- The number is read from its spelling. -/
theorem literalValue?_eq (h : Spelling n t) : literalValue? t = some (n : Int) := by
  have hsign := h.splitSign_eq
  have hseparate := h.underscoresSeparate_eq
  cases h with
  | @decimal ds t h hzero =>
    obtain ⟨d, b, rest, rfl, hb, hd⟩ := h.exists_cons
    cases hb0 : b == zero with
    | true =>
      -- A zero stands alone, and its base does not matter.
      obtain ⟨ht, rfl⟩ := eq_zero_of_head h hzero hb0
      rw [ht] at hsign hseparate ⊢
      exact literalValue?_of_splitBase hsign (List.cons_ne_nil _ _) rfl rfl hseparate
    | false =>
      exact literalValue?_of_splitBase hsign (List.cons_ne_nil _ _) (splitBase_of_ne_zero hb0 rest)
        h.readDigits?_eq hseparate
  | @prefixed base letter ds sep t hbase hsep h =>
    have hdigits : readDigits? base ((sep ++ t).filter (· != underscore)) =
        some (Nat.ofDigits base ds.reverse) := by
      rw [List.filter_append, ← h.readDigits?_eq]
      obtain rfl | rfl := hsep <;> rfl
    have hne : sep ++ t ≠ [] := by
      obtain ⟨_, _, _, rfl, -⟩ := h.exists_cons
      simp
    obtain ⟨b, rest, hrest⟩ := List.exists_cons_of_ne_nil hne
    rw [hrest] at hdigits hseparate hsign ⊢
    exact literalValue?_of_splitBase hsign (List.cons_ne_nil _ _) (splitBase_prefixed hbase rest)
      hdigits hseparate

/-- Without its underscores a spelling writes the same number. -/
theorem plain (h : Spelling n t) : Spelling n (t.filter (· != underscore)) := by
  cases h with
  | @decimal ds t h hzero =>
    refine .decimal h.plain fun hhead => ?_
    obtain ⟨d, b, rest, rfl, hb, hd⟩ := h.exists_cons
    rw [List.filter_cons_of_pos (by simpa using hb.ne_underscore)] at hhead ⊢
    obtain rfl : rest = [] := (List.cons.inj (hzero hhead)).2
    rw [Option.some.inj hhead]
    rfl
  | @prefixed base letter ds sep t hbase hsep h =>
    have hletter : (letter == underscore) = false := by
      have hletters : ∀ p ∈ baseLetters, (p.1 == underscore) = false := by decide
      exact hletters _ hbase
    have hkept : (zero :: letter :: (sep ++ t)).filter (· != underscore) =
        zero :: letter :: ([] ++ t.filter (· != underscore)) := by
      rw [List.filter_cons_of_pos (by decide), List.filter_cons_of_pos (by simpa using hletter),
        List.filter_append]
      obtain rfl | rfl := hsep <;> rfl
    rw [hkept]
    exact .prefixed hbase (.inl rfl) h.plain

/-- A spelling of a number that fits is read. -/
theorem readLiteral?_eq (h : Spelling n t) (hn : n < 2 ^ 63) : readLiteral? t = some (n : Int) := by
  rw [readLiteral?, h.literalValue?_eq, Option.filter_some, if_pos (fits64_natCast hn)]

end Spelling

end LiteralAudit.Number
