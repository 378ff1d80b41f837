import LiteralAudit.Json.Reader
import LiteralAudit.Json.Basic
import LiteralAudit.Json.Writer
import LiteralAudit.Proofs.Number.Digits
import LiteralAudit.Proofs.Text.Utf8

/-!
# Numbers in JSON

A number has a sign, an integer part, a fraction and an exponent (`Json.IsNumeral`); the reader takes
exactly that, up to a character that goes on with none of them (`Json.readNumber?_append`).

* `Json.isNumeral_ofInt`, `Json.isNumeral_ofFloat?`: what is written for integers and for finite doubles
  are such numbers.
* `Json.int?_ofInt`: a 64-bit integer is read as it was written.
-/

namespace LiteralAudit

namespace Text

theorem ofString_eq_ofChars (s : String) : ofString s = ofChars s.toList := by
  conv_lhs => rw [← String.ofList_toList (s := s)]
  rw [ofString, String.toUTF8, String.toByteArray_ofList, List.utf8Encode]
  simp [ofChars]

end Text

namespace Json

/-! ## The parts of a number -/

/-- Digits, at least one. -/
structure Digits (cs : List Char) : Prop where
  ne_nil : cs ≠ []
  isDigit : ∀ c ∈ cs, c.isDigit = true

/-- An integer part: no zero stands before other digits. -/
inductive Whole : List Char → Prop where
  | zero : Whole ['0']
  | digits {cs : List Char} : Digits cs → cs.head? ≠ some '0' → Whole cs

inductive Fraction : List Char → Prop where
  | none : Fraction []
  | point {ds : List Char} : Digits ds → Fraction ('.' :: ds)

inductive Exponent : List Char → Prop where
  | none : Exponent []
  | signed {sign : Char} {ds : List Char} : sign = '+' ∨ sign = '-' → Digits ds →
      Exponent ('e' :: sign :: ds)

/-- The characters of a number. -/
inductive IsNumeral : List Char → Prop where
  | mk {minus whole fraction exponent : List Char} : minus = [] ∨ minus = ['-'] → Whole whole →
      Fraction fraction → Exponent exponent → IsNumeral (minus ++ whole ++ fraction ++ exponent)

/-- Whether a character may go on with a number. -/
def continuesNumber (c : Char) : Bool := c.isDigit || c == '.' || c == 'e' || c == 'E'

/-- No character that may go on with a number comes first. -/
def EndsNumber (rest : List Char) : Prop := ∀ c ∈ rest.head?, continuesNumber c = false

theorem Whole.exists_cons {whole : List Char} (h : Whole whole) :
    ∃ d ds, whole = d :: ds ∧ d.isDigit = true := by
  cases h with
  | zero => exact ⟨_, _, rfl, rfl⟩
  | digits hds =>
    obtain ⟨d, ds, rfl⟩ := List.exists_cons_of_ne_nil hds.ne_nil
    exact ⟨d, ds, rfl, hds.isDigit d List.mem_cons_self⟩

/-- Whether a number may start with the character. -/
def startsNumber (c : Char) : Bool := c == '-' || c.isDigit

theorem IsNumeral.exists_cons {cs : List Char} (h : IsNumeral cs) :
    ∃ c rest, cs = c :: rest ∧ startsNumber c = true := by
  obtain @⟨minus, whole, fraction, exponent, hminus, hwhole, -, -⟩ := h
  obtain ⟨d, ds, rfl, hd⟩ := hwhole.exists_cons
  obtain rfl | rfl := hminus
  · exact ⟨d, _, rfl, by simp [startsNumber, hd]⟩
  · exact ⟨'-', _, rfl, rfl⟩

/-! ## Reading a number -/

section Reading

variable {cs ds rest : List Char}

theorem takeWhile_digits (hds : ∀ c ∈ ds, c.isDigit = true) (hrest : ∀ c ∈ rest.head?, c.isDigit = false) :
    (ds ++ rest).takeWhile Char.isDigit = ds := by
  rw [List.takeWhile_append_of_pos hds]
  cases rest with
  | nil => simp
  | cons c rest => simp [hrest c rfl]

theorem readDigits?_append (hds : Digits ds) (hrest : ∀ c ∈ rest.head?, c.isDigit = false) :
    readDigits? (ds ++ rest) = some (ds, rest) := by
  rw [readDigits?, takeWhile_digits hds.isDigit hrest]
  obtain ⟨d, ds, rfl⟩ := List.exists_cons_of_ne_nil hds.ne_nil
  simp

theorem EndsNumber.not_digit (h : EndsNumber rest) : ∀ c ∈ rest.head?, c.isDigit = false := by
  intro c hc
  have hnot := h c hc
  simp only [continuesNumber, Bool.or_eq_false_iff] at hnot
  exact hnot.1.1.1

theorem head_exponent {exponent : List Char} (h : Exponent exponent) (hrest : EndsNumber rest) :
    ∀ c ∈ (exponent ++ rest).head?, c.isDigit = false ∧ c ≠ '.' := by
  cases h with
  | none =>
    intro c hc
    have hnot := hrest c hc
    simp only [continuesNumber, Bool.or_eq_false_iff, beq_eq_false_iff_ne] at hnot
    exact ⟨hnot.1.1.1, hnot.1.1.2⟩
  | signed =>
    rintro c ⟨⟩
    decide

theorem not_digit_of_fraction {fraction exponent : List Char} (hfraction : Fraction fraction)
    (h : Exponent exponent) (hrest : EndsNumber rest) :
    ∀ c ∈ (fraction ++ (exponent ++ rest)).head?, c.isDigit = false := by
  cases hfraction with
  | none => exact fun c hc => (head_exponent h hrest c hc).1
  | point =>
    rintro c ⟨⟩
    rfl

variable {α : Type}

/-- What `readNumber?` does from the integer part on. -/
def wholeThen (k : List Char × List Char → Option α) (t : List Char) : Option α := do
  k (← match t with
    | '0' :: t => some (['0'], t)
    | t => readDigits? t)

/-- What it does from the fraction on. -/
def fractionThen (k : List Char × List Char → Option α) (t : List Char) : Option α := do
  k (← match t with
    | '.' :: u => (readDigits? u).map fun (ds, v) => ('.' :: ds, v)
    | t => some ([], t))

/-- What it does from the exponent on. -/
def exponentThen (k : List Char × List Char → Option α) (t : List Char) : Option α := do
  k (← match t with
    | e :: u =>
      if e == 'e' || e == 'E' then
        match u with
        | c :: v =>
          if c == '+' || c == '-' then (readDigits? v).map fun (ds, w) => (e :: c :: ds, w)
          else (readDigits? u).map fun (ds, w) => (e :: ds, w)
        | [] => none
      else some ([], t)
    | [] => some ([], []))

theorem readNumber?_eq (s : List Char) : readNumber? s =
    let (minus, t) := match s with
      | '-' :: t => (['-'], t)
      | _ => ([], s)
    wholeThen (fun (whole, t) => fractionThen (fun (fraction, t) => exponentThen (fun (exponent, t) =>
      some (minus ++ whole ++ fraction ++ exponent, t)) t) t) t := rfl

theorem readNumber?_of_whole {whole : List Char} (h : Whole whole) (t : List Char) :
    readNumber? (whole ++ t) =
      wholeThen (fun (whole, t) => fractionThen (fun (fraction, t) => exponentThen (fun (exponent, t) =>
        some ([] ++ whole ++ fraction ++ exponent, t)) t) t) (whole ++ t) := by
  obtain ⟨d, ds, rfl, hd⟩ := h.exists_cons
  rw [readNumber?_eq]
  split
  next hminus =>
    split at hminus
    · next heq =>
      cases heq
      cases hd
    · cases hminus
      rfl

theorem exponentThen_append {exponent : List Char} (h : Exponent exponent) (hrest : EndsNumber rest)
    (k : List Char × List Char → Option α) : exponentThen k (exponent ++ rest) = k (exponent, rest) := by
  cases h with
  | none =>
    cases rest with
    | nil => rfl
    | cons c rest =>
      have hc := hrest c rfl
      simp only [continuesNumber, Bool.or_eq_false_iff] at hc
      simp [exponentThen, hc]
  | @signed sign ds hsign hds =>
    have hread := readDigits?_append hds hrest.not_digit
    have hsigned : (sign == '+' || sign == '-') = true := by simpa using hsign
    simp [exponentThen, hsigned, hread]

theorem fractionThen_append {fraction : List Char} (h : Fraction fraction)
    (hrest : ∀ c ∈ rest.head?, c.isDigit = false ∧ c ≠ '.')
    (k : List Char × List Char → Option α) : fractionThen k (fraction ++ rest) = k (fraction, rest) := by
  cases h with
  | none =>
    cases rest with
    | nil => rfl
    | cons c rest =>
      have hc := (hrest c rfl).2
      simp [fractionThen, hc]
  | @point ds hds =>
    have hread := readDigits?_append hds fun c hc => (hrest c hc).1
    simp [fractionThen, hread]

theorem wholeThen_append {whole : List Char} (h : Whole whole)
    (hrest : ∀ c ∈ rest.head?, c.isDigit = false)
    (k : List Char × List Char → Option α) : wholeThen k (whole ++ rest) = k (whole, rest) := by
  cases h with
  | zero => rfl
  | digits hds hhead =>
    have hread := readDigits?_append hds hrest
    obtain ⟨d, ds, rfl⟩ := List.exists_cons_of_ne_nil hds.ne_nil
    have hd : d ≠ '0' := fun heq => hhead (congrArg some heq)
    simp only [List.cons_append] at hread ⊢
    simp [wholeThen, hd, hread]

/-- A number is read up to what goes on with none of its parts. -/
theorem readNumber?_append (h : IsNumeral cs) (hrest : EndsNumber rest) :
    readNumber? (cs ++ rest) = some (cs, rest) := by
  obtain @⟨minus, whole, fraction, exponent, hminus, hwhole, hfraction, hexponent⟩ := h
  have hwholeRest := not_digit_of_fraction hfraction hexponent hrest
  have hparts : wholeThen (fun (whole, t) => fractionThen (fun (fraction, t) =>
      exponentThen (fun (exponent, t) => some (minus ++ whole ++ fraction ++ exponent, t)) t) t)
      (whole ++ (fraction ++ (exponent ++ rest))) =
      some (minus ++ whole ++ fraction ++ exponent, rest) := by
    rw [wholeThen_append hwhole hwholeRest]
    dsimp only
    rw [fractionThen_append hfraction (head_exponent hexponent hrest)]
    dsimp only
    rw [exponentThen_append hexponent hrest]
  have hcut : minus ++ whole ++ fraction ++ exponent ++ rest =
      minus ++ (whole ++ (fraction ++ (exponent ++ rest))) := by simp only [List.append_assoc]
  rw [hcut]
  obtain rfl | rfl := hminus
  · exact (readNumber?_of_whole hwhole _).trans hparts
  · exact hparts

end Reading

/-! ## Integers -/

theorem digits_toDigits (n : Nat) : Digits (Nat.toDigits 10 n) :=
  ⟨Nat.toDigits_ne_nil, fun _ => Nat.isDigit_of_mem_toDigits (by decide) (by decide)⟩

theorem head_toDigits {n : Nat} (h : 0 < n) : (Nat.toDigits 10 n).head? ≠ some '0' := by
  induction n using Nat.strongRecOn with
  | ind n ih =>
    by_cases hn : n < 10
    · interval_cases n <;> decide
    · have hlast := Nat.toDigits_of_base_le (b := 10) (by decide) (Nat.not_lt.1 hn)
      obtain ⟨d, ds, hds⟩ := List.exists_cons_of_ne_nil (Nat.toDigits_ne_nil (n := n / 10) (b := 10))
      have hhead := ih (n / 10) (by omega) (by omega)
      rw [hds] at hhead
      rw [hlast, hds]
      exact hhead

theorem whole_toDigits (n : Nat) : Whole (Nat.toDigits 10 n) := by
  obtain rfl | hpos := Nat.eq_zero_or_pos n
  · exact .zero
  · exact .digits (digits_toDigits n) (head_toDigits hpos)

theorem ofNat_eq_ofChars (n : Nat) : Text.ofNat n = Text.ofChars (Nat.toDigits 10 n) := by
  rw [← Nat.toList_repr]
  exact Text.ofString_eq_ofChars _

theorem isNumeral_of_whole {whole : List Char} (h : Whole whole) : IsNumeral whole := by
  have hnumeral := IsNumeral.mk (.inl rfl) h .none .none
  simpa using hnumeral

theorem isNumeral_ofInt (i : Int) : ∃ cs, IsNumeral cs ∧ Text.ofInt i = Text.ofChars cs := by
  cases i with
  | ofNat n => exact ⟨_, isNumeral_of_whole (whole_toDigits n), ofNat_eq_ofChars n⟩
  | negSucc n =>
    have hnumeral := IsNumeral.mk (.inr rfl) (whole_toDigits (n + 1)) .none .none
    refine ⟨'-' :: Nat.toDigits 10 (n + 1), by simpa using hnumeral, ?_⟩
    show _ :: Text.ofNat (n + 1) = _
    rw [ofNat_eq_ofChars]
    rfl

theorem readDecimal?_minus (n : Nat) :
    Number.readDecimal? (('-' : UInt8) :: Text.ofNat n) = Number.signed? true n := by
  have hread : Number.readDigits? 10 (Text.ofNat n) = some n := Number.readDigits?_ofNat 0 n
  have hsign : Number.splitSign (('-' : UInt8) :: Text.ofNat n) = (true, Text.ofNat n) := rfl
  simp [Number.readDecimal?, hsign, Number.ofNat_isEmpty, hread]

theorem signed?_false {n : Nat} (h : Number.fits64 (Int.ofNat n) = true) :
    Number.signed? false n = some (Int.ofNat n) := by
  have hcast : ((n : Nat) : Int) = Int.ofNat n := rfl
  rw [Number.signed?]
  simp only [Bool.false_eq_true, if_false, hcast, h, if_true]

theorem signed?_true {n : Nat} (h : Number.fits64 (Int.negSucc n) = true) :
    Number.signed? true (n + 1) = some (Int.negSucc n) := by
  have hneg : -((n + 1 : Nat) : Int) = Int.negSucc n := (Int.negSucc_eq n).symm
  rw [Number.signed?]
  simp only [if_true, hneg, h]

/-- A 64-bit integer is read as it was written. -/
theorem int?_ofInt {i : Int} (h : Number.fits64 i = true) : int? (ofInt i) = some i := by
  cases i with
  | ofNat n => exact (Number.readDecimal?_ofNat n).trans (signed?_false h)
  | negSucc n => exact (readDecimal?_minus (n + 1)).trans (signed?_true h)

/-! ## Doubles -/

end Json

namespace Number

/-- Decimal digits as they are picked for a double: none for zero, and no zero in front. -/
structure Decimal.Normal (d : Decimal) : Prop where
  digit_lt : ∀ x ∈ d.digits, x < 10
  head_ne_zero : d.digits.head? ≠ some 0
  point_le : d.digits = [] → d.point ≤ 0

theorem digitsOf_lt {n x : Nat} (h : x ∈ digitsOf n) : x < 10 := by
  unfold digitsOf at h
  split at h
  · cases h
  · obtain ⟨c, hc, rfl⟩ := List.mem_map.1 h
    have hdigit := Char.isDigit_iff_toNat.1 ((Json.digits_toDigits n).isDigit c hc)
    have hnine : '9'.toNat = 57 := rfl
    omega

theorem digitsOf_head {n : Nat} (h : 0 < n) : ∃ x rest, digitsOf n = x :: rest ∧ x ≠ 0 := by
  obtain ⟨c, cs, hcs⟩ := List.exists_cons_of_ne_nil (Nat.toDigits_ne_nil (n := n) (b := 10))
  have hdigit := Char.isDigit_iff_toNat.1 ((Json.digits_toDigits n).isDigit c (by simp [hcs]))
  have hhead := Json.head_toDigits h
  rw [hcs, List.head?_cons, ne_eq, Option.some.injEq, ← Char.toNat_inj] at hhead
  refine ⟨c.toNat - 48, cs.map fun c => c.toNat - 48, ?_, ?_⟩
  · rw [digitsOf, if_neg (by simpa using h.ne'), hcs, List.map_cons]
  · have hzero : '0'.toNat = 48 := rfl
    omega

theorem dropTrailingZeros_prefix (ds : List Nat) : dropTrailingZeros ds <+: ds := by
  have hsuffix : ds.reverse.dropWhile (· == 0) <:+ ds.reverse := List.dropWhile_suffix _
  rw [← List.reverse_reverse ds, dropTrailingZeros]
  simpa using List.reverse_prefix.2 hsuffix

theorem dropTrailingZeros_ne_nil {x : Nat} (hx : x ≠ 0) (rest : List Nat) :
    dropTrailingZeros (x :: rest) ≠ [] := by
  intro hnil
  rw [dropTrailingZeros, List.reverse_eq_nil_iff, List.dropWhile_eq_nil_iff] at hnil
  have hzero := hnil x (by simp)
  exact hx (by simpa using hzero)

theorem nearOnGrid?_pos {b : Binary} {low high d : Nat} {s : Int}
    (h : nearOnGrid? b low high s = some d) : 0 < d := by
  simp only [nearOnGrid?] at h
  split at h
  · next hinside _ =>
    simp only [Bool.and_eq_true, bne_iff_ne] at hinside
    cases h
    split
    exacts [Nat.succ_pos _, Nat.pos_of_ne_zero hinside.2]
  · next hinside _ =>
    simp only [Bool.and_eq_true, bne_iff_ne] at hinside
    cases h
    exact Nat.pos_of_ne_zero hinside.2
  · cases h
    exact Nat.succ_pos _
  · cases h

theorem normal_firstGrid (b : Binary) (low high : Nat) (k : Int) (fuel n : Nat) :
    (firstGrid b low high k fuel n).Normal := by
  induction fuel generalizing n with
  | zero => exact ⟨by simp [firstGrid], by simp [firstGrid], fun _ => le_refl _⟩
  | succ fuel ih =>
    unfold firstGrid
    split
    · next d hd =>
      obtain ⟨x, rest, hdigits, hx⟩ := digitsOf_head (nearOnGrid?_pos hd)
      have hne := dropTrailingZeros_ne_nil hx rest
      have hprefix := dropTrailingZeros_prefix (x :: rest)
      obtain ⟨y, rest', hcut⟩ := List.exists_cons_of_ne_nil hne
      have hy : y = x := by
        rw [hcut] at hprefix
        exact (List.cons_prefix_cons.1 hprefix).1
      refine ⟨?_, ?_, ?_⟩
      · intro z hz
        rw [hdigits] at hz
        exact digitsOf_lt (hdigits ▸ hprefix.subset hz)
      · simp [hdigits, hcut, hy, hx]
      · simp [hdigits, hne]
    · exact ih (n + 1)

theorem normal_shortest (b : Binary) : b.shortest.Normal := by
  unfold Binary.shortest
  split
  · exact ⟨by simp, by simp, fun _ => le_refl _⟩
  · exact normal_firstGrid ..

end Number

namespace Json

variable {ds : List Nat}

/-- Decimal digits as characters. -/
def digitChars (ds : List Nat) : List Char := ds.map Nat.digitChar

theorem digitBytes_eq (h : ∀ x ∈ ds, x < 10) :
    Number.digitBytes ds = Text.ofChars (digitChars ds) := by
  induction ds with
  | nil => rfl
  | cons x ds ih =>
    have hbyte : [UInt8.ofNat (48 + x)] = Text.ofChar x.digitChar := by
      have hx := h x List.mem_cons_self
      interval_cases x <;> rfl
    have htail := ih fun y hy => h y (List.mem_cons_of_mem _ hy)
    show [UInt8.ofNat (48 + x)] ++ Number.digitBytes ds =
      Text.ofChar x.digitChar ++ Text.ofChars (digitChars ds)
    rw [hbyte, htail]

theorem digits_digitChars (h : ∀ x ∈ ds, x < 10) (hne : ds ≠ []) : Digits (digitChars ds) := by
  refine ⟨by simpa [digitChars] using hne, ?_⟩
  intro c hc
  obtain ⟨x, hx, rfl⟩ := List.mem_map.1 hc
  have hlt := h x hx
  interval_cases x <;> rfl

theorem head_digitChars (h : ∀ x ∈ ds, x < 10) (hhead : ds.head? ≠ some 0) :
    (digitChars ds).head? ≠ some '0' := by
  cases ds with
  | nil => simp [digitChars]
  | cons x ds =>
    have hlt := h x List.mem_cons_self
    have hx : x ≠ 0 := by simpa using hhead
    have hchar : x.digitChar ≠ '0' := by
      interval_cases x <;> first | decide | exact absurd rfl hx
    simpa [digitChars] using hchar

theorem exists_sign (negative : Bool) :
    ∃ cs, (cs = [] ∨ cs = ['-']) ∧ Number.sign negative = Text.ofChars cs := by
  cases negative with
  | false => exact ⟨[], .inl rfl, rfl⟩
  | true => exact ⟨['-'], .inr rfl, rfl⟩

/-- A fraction that is left out when it has no digits. -/
theorem exists_fraction (h : ∀ x ∈ ds, x < 10) {b : Bool} (hleft : b = false → ds ≠ []) :
    ∃ cs, Fraction cs ∧
      (if b then [] else "." ++ Number.digitBytes ds : Text) = Text.ofChars cs := by
  cases b with
  | true => exact ⟨[], .none, rfl⟩
  | false =>
    refine ⟨'.' :: digitChars ds, .point (digits_digitChars h (hleft rfl)), ?_⟩
    rw [digitBytes_eq h]
    rfl

variable {d : Number.Decimal}

theorem isNumeral_plain (h : d.Normal) : ∃ cs, IsNumeral cs ∧ d.plain = Text.ofChars cs := by
  obtain ⟨minus, hminus, hsign⟩ := exists_sign d.negative
  have hfraction : ∀ x ∈ List.replicate (-d.point).toNat 0 ++ d.digits.drop d.point.toNat, x < 10 := by
    intro x hx
    obtain hx | hx := List.mem_append.1 hx
    · simp [List.eq_of_mem_replicate hx]
    · exact h.digit_lt x (List.mem_of_mem_drop hx)
  obtain ⟨whole, hwhole, hwritten⟩ : ∃ cs, Whole cs ∧
      Number.digitBytes (if d.point ≤ 0 then [0] else
        d.digits.take d.point.toNat ++ List.replicate (d.point.toNat - d.digits.length) 0) =
        Text.ofChars cs := by
    by_cases hpoint : d.point ≤ 0
    · exact ⟨['0'], .zero, by rw [if_pos hpoint]; rfl⟩
    · rw [if_neg hpoint]
      obtain ⟨x, rest, hdigits⟩ := List.exists_cons_of_ne_nil fun hnil => hpoint (h.point_le hnil)
      obtain ⟨n, hn⟩ : ∃ n, d.point.toNat = n + 1 := ⟨d.point.toNat - 1, by omega⟩
      have hlt : ∀ y ∈ d.digits.take d.point.toNat ++
          List.replicate (d.point.toNat - d.digits.length) 0, y < 10 := by
        intro y hy
        obtain hy | hy := List.mem_append.1 hy
        · exact h.digit_lt y (List.mem_of_mem_take hy)
        · simp [List.eq_of_mem_replicate hy]
      have hhead := h.head_ne_zero
      refine ⟨_, .digits (digits_digitChars hlt ?_) (head_digitChars hlt ?_), digitBytes_eq hlt⟩
      · simp [hdigits, hn]
      · simpa [hdigits, hn] using hhead
  have hleft : (d.digits.drop d.point.toNat == []) = false →
      List.replicate (-d.point).toNat 0 ++ d.digits.drop d.point.toNat ≠ [] := by
    intro hnot hnil
    rw [(List.append_eq_nil_iff.1 hnil).2] at hnot
    cases hnot
  obtain ⟨fraction, hfraction, hpoint⟩ := exists_fraction hfraction hleft
  refine ⟨_, .mk hminus hwhole hfraction .none, ?_⟩
  simp only [Number.Decimal.plain, Text.ofChars_append, ← hsign, ← hwritten, ← hpoint]
  exact (List.append_nil _).symm

theorem isNumeral_scientific (h : d.Normal) (hne : d.digits ≠ []) :
    ∃ cs, IsNumeral cs ∧ d.scientific 1 = Text.ofChars cs := by
  obtain ⟨minus, hminus, hsign⟩ := exists_sign d.negative
  obtain ⟨x, rest, hdigits⟩ := List.exists_cons_of_ne_nil hne
  have hlt := h.digit_lt
  have hhead := h.head_ne_zero
  rw [hdigits] at hlt hhead
  have hlead : ∀ y ∈ [x], y < 10 := by
    intro y hy
    exact hlt y (List.mem_singleton.1 hy ▸ List.mem_cons_self)
  have hwhole : Whole (digitChars [x]) :=
    .digits (digits_digitChars hlead (by simp)) (head_digitChars hlead (by simpa using hhead))
  obtain ⟨fraction, hfraction, hpoint⟩ := exists_fraction
    (b := rest.isEmpty) (fun y hy => hlt y (List.mem_cons_of_mem x hy)) (by simp)
  have hexponent : ∀ e : Int, ∃ cs, Exponent cs ∧
      (if e < 0 then "e-" else "e+" : Text) ++
        (List.replicate (1 - (Text.ofNat e.natAbs).length) ('0' : UInt8) ++ Text.ofNat e.natAbs) =
        Text.ofChars cs := by
    intro e
    have hpos := Text.length_ofNat_pos e.natAbs
    have hpad : 1 - (Text.ofNat e.natAbs).length = 0 := by omega
    rw [hpad, List.replicate_zero, List.nil_append, ofNat_eq_ofChars]
    split
    · exact ⟨_, .signed (.inr rfl) (digits_toDigits _), rfl⟩
    · exact ⟨_, .signed (.inl rfl) (digits_toDigits _), rfl⟩
  obtain ⟨exponent, hexp, hwritten⟩ := hexponent (d.point - 1)
  refine ⟨_, .mk hminus hwhole hfraction hexp, ?_⟩
  simp only [Number.Decimal.scientific, hdigits, Text.ofChars_append, ← hsign, ← hpoint, ← hwritten,
    ← digitBytes_eq hlead, List.isEmpty_cons, Bool.false_eq_true, if_false, List.append_assoc]

/-- What is written for a double is a number. -/
theorem isNumeral_ofFloat? {x : Float} {j : Json} (h : ofFloat? x = some j) :
    ∃ cs, IsNumeral cs ∧ j = .number (Text.ofChars cs) := by
  unfold ofFloat? at h
  split at h
  · cases h
  · have hnormal := Number.normal_shortest (Number.Binary.ofBits x.toBits)
    cases h
    split
    · next hlayout =>
      have hne : (Number.Binary.ofBits x.toBits).shortest.digits ≠ [] := by
        intro hnil
        simp [hnil] at hlayout
      obtain ⟨cs, hcs, hwritten⟩ := isNumeral_scientific hnormal hne
      exact ⟨cs, hcs, congrArg _ hwritten⟩
    · obtain ⟨cs, hcs, hwritten⟩ := isNumeral_plain hnormal
      exact ⟨cs, hcs, congrArg _ hwritten⟩

end Json

end LiteralAudit
