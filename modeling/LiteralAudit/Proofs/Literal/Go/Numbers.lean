import LiteralAudit.Proofs.Literal.Go.Cells
import LiteralAudit.Proofs.Literal.Go.SourceLiterals
import LiteralAudit.Proofs.Number.Digits

/-!
# Integers in Go

The scanner takes an integer as one token, however it is spelled, and has nothing to say about it
(`scanNumber_spelled`): the digits it looks for are those of the base, and it asks of underscores what the
reader of integers asks of them (`badSeparatorFrom_eq_none_iff`). So the tokens of a file that assigns an
integer to a variable are known whatever the spelling is (`scan_numberAssignment`), and the file has one
literal, the decimal form of the integer (`literals_of_numberAssignment`).
-/

namespace LiteralAudit.Go

open Number (Spelling SpelledDigits DigitByte underscore zero)

variable {t : Text} {n size : Nat} {cs rest : List Cell}

/-! ## Cells of ASCII texts -/

/-- The cells of an ASCII text that stands at a place. -/
def asciiCells (k : Nat) (t : Text) : List Cell := cellsFrom k (t.map Rune.ofAscii)

theorem asciiCells_append (k : Nat) (t u : Text) :
    asciiCells k (t ++ u) = asciiCells k t ++ asciiCells (k + t.length) u := by
  induction t generalizing k with
  | nil => rfl
  | cons b t ih =>
    have hnext : k + (b :: t).length = k + 1 + t.length := by
      rw [List.length_cons, Nat.add_assoc, Nat.add_comm 1]
    rw [hnext]
    exact congrArg (_ :: ·) (ih (k + 1))

theorem map_char_asciiCells (k : Nat) (t : Text) : (asciiCells k t).map (·.char) = t.map charOf := by
  induction t generalizing k with
  | nil => rfl
  | cons b t ih => exact congrArg (_ :: ·) (ih (k + 1))

theorem exists_of_mem_asciiCells {k : Nat} {c : Cell} (h : c ∈ asciiCells k t) :
    ∃ b ∈ t, c.char = charOf b := by
  have hc := List.mem_map_of_mem (f := (·.char)) h
  rw [map_char_asciiCells] at hc
  obtain ⟨b, hb, heq⟩ := List.mem_map.1 hc
  exact ⟨b, hb, heq.symm⟩

theorem spelling_asciiCells (ht : t.IsAscii) (k : Nat) : spelling (asciiCells k t) = t := by
  rw [asciiCells, ← ht.runes_eq]
  exact spelling_cellsFrom ht.isUtf8 k

/-! ## Separators -/

/-- What the scanner asks of an ASCII character is what the reader of integers asks of its byte. -/
theorem asks_charOf {b : UInt8} (hb : b.toNat < 0x80) :
    (charOf b == '_') = (b == underscore) ∧ (charOf b == '0') = (b == zero) ∧
      isDecimal (charOf b) = Text.isDigit b ∧ isHex (charOf b) = (Text.hexValue? b).isSome :=
  forall_ascii_byte (P := fun b => (charOf b == '_') = (b == underscore) ∧
    (charOf b == '0') = (b == zero) ∧
      isDecimal (charOf b) = Text.isDigit b ∧ isHex (charOf b) = (Text.hexValue? b).isSome)
    (by decide) hb

/-- The scanner and the reader of integers agree on underscores. -/
theorem badSeparatorFrom_eq_none_iff (ht : t.IsAscii) (hex : Bool) (last : Option Bool) (i : Nat) :
    badSeparatorFrom hex last i (t.map charOf) = none ↔ Number.underscoresFrom hex last t = true := by
  induction t generalizing last i with
  | nil =>
    rw [List.map_nil, badSeparatorFrom, Number.underscoresFrom]
    split <;> simp_all
  | cons b t ih =>
    obtain ⟨hb, ht⟩ := List.forall_mem_cons.1 ht
    obtain ⟨hunderscore, -, hdecimal, hhex⟩ := asks_charOf hb
    replace ih := ih ht
    have hbyte : (b == ('_' : UInt8)) = (b == underscore) := rfl
    rw [List.map_cons, badSeparatorFrom, Number.underscoresFrom, hunderscore, hdecimal, hhex, hbyte]
    clear hunderscore hdecimal hhex hbyte
    split_ifs with hunderscore hlast hdigit hlast
    all_goals simp_all

/-- A digit, as a character. -/
theorem charOf_digit {d : Nat} {b : UInt8} (h : DigitByte d b) :
    charOf b ≠ '_' ∧ charOf b ≠ '.' ∧ isHex (charOf b) = true ∧
      (d < 10 → isDecimal (charOf b) = true ∧ (charOf b).toNat - 48 = d) := by
  cases h <;> interval_cases d <;> decide

theorem badSeparator?_of_ne_zero {c : Char} (hc : c ≠ '0') (cs : List Char) :
    badSeparator? (c :: cs) = badSeparatorFrom false none 0 (c :: cs) := by
  unfold badSeparator?
  split
  · next heq => exact absurd (List.cons.inj heq).1 hc
  · rfl

/-- A spelling has no underscore that separates no digits. -/
theorem badSeparator?_spelled (h : Spelling n t) : badSeparator? (t.map charOf) = none := by
  have hascii := h.isAscii
  have hseparate := h.underscoresSeparate_eq
  cases h with
  | @decimal ds t h hzero =>
    obtain ⟨d, b, rest, rfl, hb, hd⟩ := h.exists_cons
    cases hb0 : b == zero with
    | true =>
      rw [(Spelling.eq_zero_of_head h hzero hb0).1]
      rfl
    | false =>
      have hne : charOf b ≠ '0' := by
        obtain ⟨-, hchar, -⟩ := asks_charOf (hascii b List.mem_cons_self)
        exact beq_eq_false_iff_ne.1 (hchar.trans hb0)
      rw [List.map_cons, badSeparator?_of_ne_zero hne, ← List.map_cons, badSeparatorFrom_eq_none_iff hascii,
        ← Spelling.underscoresSeparate_of_ne_zero hb0]
      exact hseparate
  | @prefixed base letter ds sep u hbase hsep h =>
    have hrest := (List.forall_mem_cons.1 (List.forall_mem_cons.1 hascii).2).2
    have hletter : badSeparator? ((zero :: letter :: (sep ++ u)).map charOf) =
        badSeparatorFrom (base == 16) (some true) 2 ((sep ++ u).map charOf) := by
      obtain ⟨rfl, rfl⟩ | ⟨rfl, rfl⟩ | ⟨rfl, rfl⟩ | ⟨rfl, rfl⟩ | ⟨rfl, rfl⟩ | ⟨rfl, rfl⟩ :=
        Number.eq_of_mem_baseLetters hbase
      all_goals rfl
    rw [hletter, badSeparatorFrom_eq_none_iff hrest, ← Spelling.underscoresSeparate_prefixed hbase]
    exact hseparate

/-! ## Numbers -/

/-- The cells hold digits of a base, and underscores. -/
def DigitCells (base : Nat) (cs : List Cell) : Prop :=
  ∀ c ∈ cs, c.char = '_' ∨ ∃ d b, DigitByte d b ∧ d < base ∧ c.char = charOf b

/-- A line ends in front of the cells, or the file does. -/
def EndsLine (rest : List Cell) : Prop := ∀ c ∈ rest.head?, c.char = '\n'

theorem digitCells_of_spelled {base : Nat} {ds : List Nat} (h : SpelledDigits base ds t) (k : Nat) :
    DigitCells base (asciiCells k t) := by
  intro c hc
  obtain ⟨b, hb, hchar⟩ := exists_of_mem_asciiCells hc
  obtain rfl | ⟨d, hd, hlt⟩ := h.of_mem hb
  · exact .inl hchar
  · exact .inr ⟨d, b, hd, hlt, hchar⟩

/-- Digits of the base are taken up to the end of the line. -/
theorem digitSpan_digits {base : Nat} {hex : Bool} (hcs : DigitCells base cs) (hrest : EndsLine rest)
    (hbase : base ≤ 10 ∨ hex = true) : digitSpan hex (cs ++ rest) = (cs, rest) := by
  have hdigits : ∀ c ∈ cs,
      (c.char == '_' || (if hex then isHex c.char else isDecimal c.char)) = true := by
    intro c hc
    obtain hunderscore | ⟨d, b, hd, hlt, hchar⟩ := hcs c hc
    · rw [hunderscore]
      rfl
    · obtain ⟨-, -, hhex, hdecimal⟩ := charOf_digit hd
      rw [hchar, Bool.or_eq_true]
      refine .inr ?_
      split
      · exact hhex
      · next hno => exact (hdecimal (hlt.trans_le (hbase.resolve_right hno))).1
  have hstop : ∀ c ∈ rest.head?,
      ¬ (c.char == '_' || (if hex then isHex c.char else isDecimal c.char)) = true := by
    intro c hc
    rw [hrest c hc]
    cases hex <;> decide
  rw [digitSpan, List.span_eq_takeWhile_dropWhile, List.takeWhile_append_of_pos hdigits,
    List.dropWhile_append_of_pos hdigits]
  cases rest with
  | nil => rw [List.takeWhile_nil, List.dropWhile_nil, List.append_nil]
  | cons c rest =>
    have hc := hstop c rfl
    rw [List.takeWhile_cons, List.dropWhile_cons, if_neg hc, if_neg hc, List.append_nil]

/-- The prefix of a number and the digits behind it. -/
structure Prefixed (cs : List Cell) (letter : Option Char) (base : Nat) (lead body : List Cell) : Prop where
  append : lead ++ body = cs
  base_mem : base ∈ [2, 8, 10, 16]
  digits : DigitCells base body
  hasDigits : letter = some '0' ∨ ∃ c ∈ body, c.char ≠ '_'

theorem exists_digit_of_spelled {base : Nat} {ds : List Nat} (h : SpelledDigits base ds t) (k : Nat) :
    ∃ c ∈ asciiCells k t, c.char ≠ '_' := by
  obtain ⟨d, b, rest, rfl, hb, -⟩ := h.exists_cons
  exact ⟨⟨charOf b, k⟩, List.mem_cons_self, (charOf_digit hb).1⟩

theorem numberPrefix_of_ne_zero {c : Cell} (hc : c.char ≠ '0') (cs : List Cell) :
    numberPrefix (c :: cs) = (none, 10, [], c :: cs) := by
  cases cs <;> simp [numberPrefix, hc]

theorem numberPrefix_spelled (h : Spelling n t) (k : Nat) (hrest : EndsLine rest) :
    ∃ letter base lead body,
      numberPrefix (asciiCells k t ++ rest) = (letter, base, lead, body ++ rest) ∧
        Prefixed (asciiCells k t) letter base lead body := by
  have hascii := h.isAscii
  cases h with
  | @decimal ds t h hzero =>
    obtain ⟨d, b, u, rfl, hb, hd⟩ := h.exists_cons
    cases hb0 : b == zero with
    | true =>
      rw [(Spelling.eq_zero_of_head h hzero hb0).1]
      refine ⟨some '0', 8, [⟨'0', k⟩], [], ?_, ⟨rfl, by decide, List.forall_mem_nil _, .inl rfl⟩⟩
      cases rest with
      | nil => rfl
      | cons c rest =>
        have hc : c.char = '\n' := hrest c rfl
        show numberPrefix (⟨'0', k⟩ :: c :: rest) = _
        simp [numberPrefix, hc]
    | false =>
      have hne : charOf b ≠ '0' := by
        obtain ⟨-, hchar, -⟩ := asks_charOf (hascii b List.mem_cons_self)
        exact beq_eq_false_iff_ne.1 (hchar.trans hb0)
      refine ⟨none, 10, [], asciiCells k (b :: u), numberPrefix_of_ne_zero hne _, rfl, by decide,
        digitCells_of_spelled h k, .inr (exists_digit_of_spelled h k)⟩
  | @prefixed base letter ds sep u hbase hsep h =>
    let body := asciiCells (k + 2) (sep ++ u)
    have hdigits : DigitCells base body := by
      obtain rfl | rfl := hsep
      · exact digitCells_of_spelled h _
      · exact List.forall_mem_cons.2 ⟨.inl rfl, digitCells_of_spelled h _⟩
    have hany : ∃ c ∈ body, c.char ≠ '_' := by
      obtain rfl | rfl := hsep
      · exact exists_digit_of_spelled h _
      · obtain ⟨c, hc, hne⟩ := exists_digit_of_spelled h (k + 2 + 1)
        exact ⟨c, List.mem_cons_of_mem _ hc, hne⟩
    have hstart (x : Option Char)
        (hx : numberPrefix (asciiCells k (zero :: letter :: (sep ++ u)) ++ rest) =
          (x, base, [⟨'0', k⟩, ⟨charOf letter, k + 1⟩], body ++ rest))
        (hmem : base ∈ [2, 8, 10, 16]) :
        ∃ letter' base' lead body',
          numberPrefix (asciiCells k (zero :: letter :: (sep ++ u)) ++ rest) =
            (letter', base', lead, body' ++ rest) ∧
          Prefixed (asciiCells k (zero :: letter :: (sep ++ u))) letter' base' lead body' :=
      ⟨x, base, _, body, hx, rfl, hmem, hdigits, .inr hany⟩
    obtain ⟨rfl, rfl⟩ | ⟨rfl, rfl⟩ | ⟨rfl, rfl⟩ | ⟨rfl, rfl⟩ | ⟨rfl, rfl⟩ | ⟨rfl, rfl⟩ :=
      Number.eq_of_mem_baseLetters hbase
    · exact hstart (some 'x') rfl (by decide)
    · exact hstart (some 'x') rfl (by decide)
    · exact hstart (some 'o') rfl (by decide)
    · exact hstart (some 'o') rfl (by decide)
    · exact hstart (some 'b') rfl (by decide)
    · exact hstart (some 'b') rfl (by decide)

/-- A line break is no part of a number. -/
theorem EndsLine.any_head? (h : EndsLine rest) {p : Cell → Bool}
    (hp : ∀ c : Cell, c.char = '\n' → p c = false) : rest.head?.any p = false := by
  cases rest with
  | nil => rfl
  | cons c rest => exact hp c (h c rfl)

/-- A spelling of an integer is one token, about which there is nothing to say. -/
theorem scanNumber_spelled (h : Spelling n t) (k size : Nat) (hrest : EndsLine rest) :
    scanNumber size (asciiCells k t ++ rest) = (.int, asciiCells k t, rest, []) := by
  obtain ⟨letter, base, lead, body, hstart, happend, hmem, hdigits, hany⟩ :=
    numberPrefix_spelled h k hrest
  have hfirst : (asciiCells k t ++ rest).head?.any (·.char == '.') = false := by
    obtain ⟨d, b, u, rfl, hb, -⟩ := h.exists_cons
    exact beq_eq_false_iff_ne.2 (charOf_digit hb).2.1
  have hbase : base ≤ 10 ∨ (base == 16) = true := by
    simp only [List.mem_cons, List.not_mem_nil, or_false] at hmem
    rcases hmem with rfl | rfl | rfl | rfl <;> decide
  have hspan : digitSpan (base == 16) (body ++ rest) = (body, rest) :=
    digitSpan_digits hdigits hrest hbase
  have hpoint : rest.head?.any (·.char == '.') = false :=
    hrest.any_head? fun c hc => by rw [hc]; rfl
  have himaginary : rest.head?.any (·.char == 'i') = false :=
    hrest.any_head? fun c hc => by rw [hc]; rfl
  have hmark : (rest.head?.filter fun c =>
      c.char == 'e' || c.char == 'E' || c.char == 'p' || c.char == 'P') = none := by
    rw [Option.filter_eq_none_iff]
    intro c hc
    rw [hrest c hc]
    decide
  have hhas : (letter == some '0' || body.any fun c => c.char != '_') = true := by
    rcases hany with rfl | ⟨c, hc, hne⟩
    · rfl
    · rw [Bool.or_eq_true, List.any_eq_true]
      exact .inr ⟨c, hc, by simpa using hne⟩
  have hvalid : base ≤ 10 → (body.find? fun c => c.char != '_' &&
      decide (c.char.toNat - 48 ≥ if base == 2 then 2 else if base == 8 then 8 else 10)) = none := by
    intro hle
    have hlimit : (if base == 2 then 2 else if base == 8 then 8 else 10) = base := by
      simp only [List.mem_cons, List.not_mem_nil, or_false] at hmem
      rcases hmem with rfl | rfl | rfl | rfl
      · rfl
      · rfl
      · rfl
      · exact absurd hle (by decide)
    rw [List.find?_eq_none, hlimit]
    intro c hc
    obtain hunderscore | ⟨d, b, hd, hlt, hchar⟩ := hdigits c hc
    · simp [hunderscore]
    · have hvalue := ((charOf_digit hd).2.2.2 (hlt.trans_le hle)).2
      simp [hchar, hvalue, hlt]
  have hseparated : badSeparator? ((asciiCells k t).map (·.char)) = none := by
    rw [map_char_asciiCells]
    exact badSeparator?_spelled h
  unfold scanNumber
  simp only [hstart, hfirst, hspan, hpoint, himaginary, hmark, Bool.false_eq_true, if_false,
    List.drop_nil, List.append_nil, hhas, hseparated, Option.isSome_none, Bool.or_self, Bool.false_and,
    Bool.and_false, happend, if_true]
  by_cases hle : base ≤ 10
  · rw [hvalid hle]
    simp
  · simp [hle]

/-! ## Tokens of an assignment -/

/-- What stands before an integer that is assigned to a variable. -/
def numberFront : Text := "package p\nvar x = "

/-- A file that assigns an integer to a variable, with what ends the line. -/
def numberAssignment (t stop : Text) : Text := numberFront ++ t ++ stop

/-- A scanner that has met no directives. -/
def plainScanner (file : Text) (size : Nat) (starts : List Nat) (cells : List Cell) (semi : Bool) : Scanner :=
  { file, size, cells, insertSemi := semi, lineStarts := starts }

/-- An operator is told by its characters. -/
theorem operator?_eq (cs : List Cell) :
    operator? cs = operators.find? fun op => op.toList.isPrefixOf ((cs.take 3).map (·.char)) := by
  unfold operator?
  dsimp only
  congr 1
  funext op
  rw [Bool.eq_iff_iff, String.isPrefixOf, String.startsWith_string_iff, List.isPrefixOf_iff_prefix,
    String.toList_ofList]

section

variable {file : Text} {starts : List Nat}

theorem run_token {fuel : Nat} {s s' : Scanner} {tok : Token} (h : s.next = (some tok, s', []))
    (htok : tok.tok ≠ .eof) (hnotes : tok.notes = []) :
    (s.run (fuel + 1) [] []).1 = tok :: (s'.run fuel [] []).1 := by
  have hkept : { tok with notes := [] } = tok := by rw [← hnotes]
  rw [Scanner.run, h]
  dsimp only
  rw [if_neg (by simpa using htok)]
  exact congrArg (· :: _) hkept

/-- A number starts with a digit, which is no blank and no letter. -/
theorem isDecimal_charOf {d : Nat} {b : UInt8} (h : DigitByte d b) (hd : d < 10) :
    isDecimal (charOf b) = true ∧ isLetter (charOf b) = false ∧
      charOf b ∉ [' ', '\t', '\r', '\n'] := by
  cases h with
  | numeral => interval_cases d <;> decide
  | lower hten | upper hten => omega

theorem next_number (h : Spelling n t) (o k : Nat) (hrest : EndsLine rest) :
    (plainScanner file size starts (⟨' ', o⟩ :: (asciiCells k t ++ rest)) false).next =
      (some ⟨.int, t, k, offsetOf size rest, []⟩, plainScanner file size starts rest true, []) := by
  have hscan := scanNumber_spelled h k size hrest
  have hspelling := spelling_asciiCells h.isAscii k
  obtain ⟨d, b, u, rfl, hb, hd⟩ := h.exists_cons
  obtain ⟨hdecimal, hletter, hblank⟩ := isDecimal_charOf hb hd
  have hcells : asciiCells k (b :: u) ++ rest = ⟨charOf b, k⟩ :: (asciiCells (k + 1) u ++ rest) := rfl
  simp only [List.mem_cons, List.not_mem_nil, or_false, not_or] at hblank
  rw [hcells] at hscan ⊢
  simp [Scanner.next, plainScanner, isBlank, hblank, hletter, hdecimal, hscan, hspelling, offsetOf]

/-- The tokens before the integer. -/
def frontTokens : List Token :=
  [⟨.keyword "package", "package", 0, 7, []⟩, ⟨.ident, "p", 8, 9, []⟩, ⟨.op ";", "\n", 9, 10, []⟩,
   ⟨.keyword "var", "var", 10, 13, []⟩, ⟨.ident, "x", 14, 15, []⟩, ⟨.op "=", "=", 16, 17, []⟩]

/-- What stands before the integer is scanned up to the blank before it. -/
theorem run_front (fuel : Nat) (rest : List Cell) :
    ((plainScanner file size starts (asciiCells 0 numberFront ++ rest) false).run (fuel + 6) [] []).1 =
      frontTokens ++ ((plainScanner file size starts (⟨' ', 17⟩ :: rest) false).run fuel [] []).1 := by
  let left (k : Nat) (semi : Bool) : Scanner :=
    plainScanner file size starts ((asciiCells 0 numberFront).drop k ++ rest) semi
  have hpackage : (left 0 false).next =
      (some ⟨.keyword "package", "package", 0, 7, []⟩, left 7 false, []) := rfl
  have hname : (left 7 false).next = (some ⟨.ident, "p", 8, 9, []⟩, left 9 true, []) := rfl
  have hbreak : (left 9 true).next = (some ⟨.op ";", "\n", 9, 10, []⟩, left 10 false, []) := rfl
  have hvar : (left 10 false).next = (some ⟨.keyword "var", "var", 10, 13, []⟩, left 13 false, []) := rfl
  have hvariable : (left 13 false).next = (some ⟨.ident, "x", 14, 15, []⟩, left 15 true, []) := rfl
  have hequals : (left 15 true).next = (some ⟨.op "=", "=", 16, 17, []⟩, left 17 false, []) := by
    have hop : operator? (⟨'=', 16⟩ :: ⟨' ', 17⟩ :: rest) = some "=" := by
      rw [operator?_eq]
      rfl
    have hletter : isLetter '=' = false := by decide
    have hlength : "=".length = 1 := rfl
    have hcells (semi : Bool) :
        left 15 semi =
          plainScanner file size starts (⟨' ', 15⟩ :: ⟨'=', 16⟩ :: ⟨' ', 17⟩ :: rest) semi := rfl
    have hrest (semi : Bool) :
        left 17 semi = plainScanner file size starts (⟨' ', 17⟩ :: rest) semi := rfl
    rw [hcells, hrest]
    simp [Scanner.next, plainScanner, isBlank, isDecimal, hletter, hop, hlength, offsetOf, spelling]
    rfl
  show ((left 0 false).run (fuel + 5 + 1) [] []).1 = _
  rw [run_token hpackage (by simp) rfl, run_token hname (by simp) rfl, run_token hbreak (by simp) rfl,
    run_token hvar (by simp) rfl, run_token hvariable (by simp) rfl, run_token hequals (by simp) rfl]
  rfl

/-- Behind the integer, the line ends, and then the file. -/
theorem run_stop {stop : Text} (hstop : stop = [] ∨ stop = "\n") (fuel k : Nat) :
    ∃ p q u, ((plainScanner file size starts (asciiCells k stop) true).run (fuel + 2) [] []).1 =
      [⟨.op ";", "\n", p, q, []⟩, ⟨.eof, [], u, u, []⟩] := by
  rcases hstop with rfl | rfl
  · exact ⟨_, _, _, rfl⟩
  · exact ⟨_, _, _, rfl⟩

end

/-- No character of an ASCII text without NULs is bad. -/
theorem badCharactersFrom_eq_nil (k : Nat) (ht : ∀ b ∈ t, 0 < b.toNat ∧ b.toNat < 0x80) :
    badCharactersFrom k (t.map Rune.ofAscii) = [] := by
  induction t generalizing k with
  | nil => rfl
  | cons b t ih =>
    obtain ⟨⟨hpos, hlt⟩, ht⟩ := List.forall_mem_cons.1 ht
    have hcode : (Rune.ofAscii b).char.toNat = b.toNat := Rune.code_ofAscii hlt
    have hstray : (Rune.ofAscii b).isStray = false :=
      forall_ascii_byte (P := fun b => (Rune.ofAscii b).isStray = false) (by decide) hlt
    rw [List.map_cons, badCharactersFrom, hcode, hstray, if_neg (by simpa using Nat.ne_of_gt hpos),
      if_neg Bool.false_ne_true, if_neg (by simp; omega)]
    exact ih _ ht

/-- The tokens of an assignment. -/
theorem scan_numberAssignment (file : Text) {stop : Text} (h : Spelling n t)
    (hstop : stop = [] ∨ stop = "\n") :
    ∃ p q r u, (scan file (numberAssignment t stop)).1 =
      frontTokens ++ [⟨.int, t, 18, p, []⟩, ⟨.op ";", "\n", q, r, []⟩, ⟨.eof, [], u, u, []⟩] := by
  have hbytes : ∀ b ∈ numberAssignment t stop, 0 < b.toNat ∧ b.toNat < 0x80 := by
    have hspelled : ∀ b ∈ Number.spellingBytes, 0 < b.toNat ∧ b.toNat < 0x80 := by decide
    have hfront : ∀ b ∈ numberFront, 0 < b.toNat ∧ b.toNat < 0x80 := by decide
    have hend : ∀ b ∈ stop, 0 < b.toNat ∧ b.toNat < 0x80 := by
      rcases hstop with rfl | rfl
      · exact List.forall_mem_nil _
      · exact List.forall_mem_singleton.2 (by decide)
    refine List.forall_mem_append.2 ⟨List.forall_mem_append.2 ⟨hfront, fun b hb => ?_⟩, hend⟩
    exact hspelled b (h.mem_spellingBytes b hb)
  have hrunes : (numberAssignment t stop).runes = (numberAssignment t stop).map Rune.ofAscii :=
    Text.IsAscii.runes_eq fun b hb => (hbytes b hb).2
  have hcells : cellsFrom 0 (numberAssignment t stop).runes =
      asciiCells 0 numberFront ++ (asciiCells 18 t ++ asciiCells (18 + t.length) stop) := by
    rw [hrunes]
    show asciiCells 0 (numberFront ++ t ++ stop) = _
    rw [List.append_assoc, asciiCells_append, asciiCells_append]
    rfl
  have hends : EndsLine (asciiCells (18 + t.length) stop) := by
    rcases hstop with rfl | rfl
    · rintro _ ⟨⟩
    · rintro _ ⟨⟩
      rfl
  have hbad : badCharactersFrom 0 (numberAssignment t stop).runes = [] := by
    rw [hrunes]
    exact badCharactersFrom_eq_nil 0 hbytes
  let rest := asciiCells 18 t ++ asciiCells (18 + t.length) stop
  let starts := lineStartsOf (numberAssignment t stop).length (asciiCells 0 numberFront ++ rest)
  let scanner := plainScanner file (numberAssignment t stop).length starts
    (asciiCells 0 numberFront ++ rest) false
  have hscan : (scan file (numberAssignment t stop)).1 =
      (scanner.run (2 * (asciiCells 0 numberFront ++ rest).length + 3) [] []).1 := by
    unfold scan
    have hpaired : startsInPairs (numberAssignment t stop) = false := rfl
    rw [hpaired]
    simp only [Bool.false_eq_true, if_false, hbad, hcells]
    rfl
  obtain ⟨fuel, hfuel⟩ : ∃ fuel,
      2 * (asciiCells 0 numberFront ++ rest).length + 3 = fuel + 2 + 1 + 6 := by
    have hlength : (asciiCells 0 numberFront).length = 18 := rfl
    rw [List.length_append, hlength]
    exact ⟨30 + 2 * rest.length, by omega⟩
  obtain ⟨q, r, u, hlast⟩ :=
    @run_stop (numberAssignment t stop).length file starts stop hstop fuel (18 + t.length)
  refine ⟨offsetOf (numberAssignment t stop).length (asciiCells (18 + t.length) stop), q, r, u, ?_⟩
  rw [hscan, hfuel, run_front, run_token (next_number h 17 18 hends) (by simp) rfl, hlast]

/-- A file that assigns an integer to a variable is parsed. -/
theorem exists_parse_numberAssignment (path : Text) {stop : Text} (h : Spelling n t)
    (hstop : stop = [] ∨ stop = "\n") :
    ∃ trees layout, parse path (numberAssignment t stop) = .ok (trees, layout) := by
  obtain ⟨p, q, r, u, hscan⟩ := scan_numberAssignment path h hstop
  unfold parse
  dsimp -zeta only
  rw [hscan]
  exact ⟨_, _, rfl⟩

/-- An integer that is assigned to a variable is the one literal of the file. -/
theorem literals_of_numberAssignment (path : Text) {stop : Text} (h : Spelling n t) (hn : n < 2 ^ 63)
    (hstop : stop = [] ∨ stop = "\n") :
    ∃ l, literals path (numberAssignment t stop) = .ok [l] ∧ l.value = Text.ofNat n ∧
      l.numeric = true := by
  obtain ⟨trees, layout, hparse⟩ := exists_parse_numberAssignment path h hstop
  obtain ⟨p, q, r, u, hscan⟩ := scan_numberAssignment path h hstop
  obtain ⟨ls, hls⟩ : ∃ ls, literals path (numberAssignment t stop) = .ok ls := by
    unfold literals
    rw [hparse]
    exact ⟨_, rfl⟩
  have hdenotes := forall₂_denotes_of_literals hls
  have htokens : literalTokens (scan path (numberAssignment t stop)).1 = [⟨.int, t, 18, p, []⟩] := by
    rw [hscan]
    rfl
  rw [htokens, List.forall₂_cons_left_iff] at hdenotes
  obtain ⟨l, ls, ⟨hvalue, hnumeric⟩, hrest, rfl⟩ := hdenotes
  obtain rfl := List.forall₂_nil_left_iff.1 hrest
  refine ⟨l, hls, ?_, hnumeric⟩
  rw [hvalue, h.readLiteral?_eq hn]
  rfl

end LiteralAudit.Go
