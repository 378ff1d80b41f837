import LiteralAudit.Proofs.Text.Utf8
import LiteralAudit.Proofs.Time.RunStamp

/-!
# Timestamps in the internet's date format

A timestamp whose own clock shows a year of four digits and whose offset is a whole number of minutes
below a day (`Timestamp.HasText`) is read as it was written, to the nanosecond and with its offset
(`Timestamp.readRfc3339?_rfc3339`).
-/

namespace LiteralAudit.Timestamp

/-- What the internet's date format can hold. -/
structure HasText (t : Timestamp) : Prop where
  year_nonneg : 0 ≤ t.clock.date.year
  year_le : t.clock.date.year ≤ 9999
  nanos_lt : t.nanos < 10 ^ 9
  offset_lt : t.offset.natAbs < 86400
  offset_minutes : t.offset % 60 = 0

instance (t : Timestamp) : Decidable t.HasText :=
  decidable_of_iff (0 ≤ t.clock.date.year ∧ t.clock.date.year ≤ 9999 ∧ t.nanos < 10 ^ 9 ∧
      t.offset.natAbs < 86400 ∧ t.offset % 60 = 0)
    ⟨fun ⟨h₁, h₂, h₃, h₄, h₅⟩ => ⟨h₁, h₂, h₃, h₄, h₅⟩, fun ⟨h₁, h₂, h₃, h₄, h₅⟩ => ⟨h₁, h₂, h₃, h₄, h₅⟩⟩

/-- A clock and its offset tell the second. -/
theorem ofClock_clock (t : Timestamp) : ofClock t.clock t.nanos t.offset = t := by
  obtain ⟨seconds, nanos, offset⟩ := t
  unfold ofClock clock
  simp only [Time.daysFromCivil_civilFromDays, mk.injEq, and_true]
  omega

/-! ## Fractions of a second -/

theorem trimEnd_append_zeros (t : Text) :
    ∃ k, t = Text.trimEnd (· == ('0' : UInt8)) t ++ List.replicate k ('0' : UInt8) := by
  have hcut : t.reverse.takeWhile (· == ('0' : UInt8)) ++ t.reverse.dropWhile (· == ('0' : UInt8)) =
      t.reverse := List.takeWhile_append_dropWhile
  have hzeros : t.reverse.takeWhile (· == ('0' : UInt8)) =
      List.replicate (t.reverse.takeWhile (· == ('0' : UInt8))).length ('0' : UInt8) := by
    refine List.eq_replicate_iff.2 ⟨rfl, fun b hb => ?_⟩
    have hzero := List.mem_takeWhile_imp (p := fun b => b == ('0' : UInt8)) hb
    exact beq_iff_eq.1 hzero
  have hback := congrArg List.reverse hcut
  rw [List.reverse_append, List.reverse_reverse, hzeros, List.reverse_replicate] at hback
  exact ⟨_, hback.symm⟩

/-- What starts neither with a digit nor with the separator of a fraction. -/
def EndsFraction (rest : Text) : Prop :=
  ∀ b ∈ rest.head?, Text.isDigit b = false ∧ b ≠ ('.' : UInt8) ∧ b ≠ (',' : UInt8)

theorem fraction_of_ends {rest : Text} (h : EndsFraction rest) : fraction rest = (0, rest) := by
  match rest with
  | [] => rfl
  | [_] => rfl
  | p :: d :: rest =>
    obtain ⟨-, hpoint, hcomma⟩ := h p rfl
    simp [fraction, hpoint, hcomma]

theorem fraction_fractionText {nanos : Nat} (h : nanos < 10 ^ 9) {rest : Text} (hrest : EndsFraction rest) :
    fraction (fractionText nanos ++ rest) = (nanos, rest) := by
  by_cases hzero : nanos = 0
  · subst hzero
    exact fraction_of_ends hrest
  · obtain ⟨k, hcut⟩ := trimEnd_append_zeros (padded 9 nanos)
    have hread : Number.readDigits? 10 (padded 9 nanos) = some nanos := Number.readDigits?_ofNat _ nanos
    have hlen := length_padded (w := 9) (by decide) h
    have hdigits : ∀ b ∈ Text.trimEnd (· == ('0' : UInt8)) (padded 9 nanos), Text.isDigit b = true := by
      intro b hb
      exact isDigit_of_mem_padded (w := 9) (n := nanos) (hcut ▸ List.mem_append_left _ hb)
    rw [fractionText, if_neg (by simpa using hzero)]
    cases hds : Text.trimEnd (· == ('0' : UInt8)) (padded 9 nanos) with
    | nil =>
      -- Nine zeros are the digits of no other number.
      rw [hds, List.nil_append] at hcut
      rw [hcut, Number.readDigits?_zeros] at hread
      exact absurd (Option.some.inj hread).symm hzero
    | cons d ds =>
      rw [hds] at hcut hdigits
      have htake : (d :: ds ++ rest).takeWhile Text.isDigit = d :: ds := by
        rw [List.takeWhile_append_of_pos hdigits]
        cases rest with
        | nil => simp
        | cons b rest => simp [(hrest b rfl).1]
      have hlength := congrArg List.length hcut
      rw [hlen, List.length_append, List.length_replicate] at hlength
      have hnine : (d :: ds ++ List.replicate 9 ('0' : UInt8)).take 9 = padded 9 nanos := by
        rw [hcut, List.take_append, List.take_of_length_le (by omega), List.take_replicate]
        congr 2
        omega
      have hd := hdigits d List.mem_cons_self
      have hpoint : Text.ofString "." = [('.' : UInt8)] := rfl
      simp only [hpoint, List.cons_append, List.nil_append] at htake ⊢
      have hstarts : ((('.' : UInt8) == '.' || ('.' : UInt8) == ',') && Text.isDigit d) = true := by
        rw [hd]
        rfl
      simp only [fraction, hstarts, if_true, htake, hnine, hread, Option.getD_some, List.length_cons,
        List.drop_succ_cons, List.drop_left']

/-! ## Offsets -/

/-- How an offset is written. -/
def offsetSuffix (offset : Int) : Text := if offset == 0 then "Z" else offsetText ":" offset

/-- Hours and minutes behind a sign are read as they are written. -/
theorem readOffset?_signed {s : UInt8} (hs : s = ('+' : UInt8) ∨ s = ('-' : UInt8)) {hours minutes : Nat}
    (hhours : hours ≤ 24) (hminutes : minutes ≤ 60) :
    readOffset? (s :: (padded 2 hours ++ (':' : UInt8) :: padded 2 minutes)) =
      some (if s == '-' then -((hours : Int) * 3600 + minutes * 60)
        else (hours : Int) * 3600 + minutes * 60, []) := by
  have htwo : ∀ {n : Nat}, n < 10 ^ 2 → ∀ rest, digits? 2 (padded 2 n ++ rest) = some (n, rest) :=
    fun hn => digits?_padded (by decide) hn
  have hmins := htwo (n := minutes) (by omega) []
  rw [List.append_nil] at hmins
  have hnotZ : (s == ('Z' : UInt8)) = false := by
    obtain rfl | rfl := hs <;> rfl
  have hsign : (s == ('+' : UInt8) || s == ('-' : UInt8)) = true := by
    obtain rfl | rfl := hs <;> rfl
  have hrange : (decide (hours ≤ 24) && decide (minutes ≤ 60)) = true := by simp [hhours, hminutes]
  simp only [readOffset?, hnotZ, hsign, htwo (n := hours) (by omega), expect?_cons, hmins, hrange, bind,
    Option.bind_some]
  rfl

theorem readOffset?_offsetSuffix {offset : Int} (hlt : offset.natAbs < 86400)
    (hminutes : offset % 60 = 0) : readOffset? (offsetSuffix offset) = some (offset, []) := by
  by_cases hzero : offset = 0
  · subst hzero
    rfl
  · have hhour : offset.natAbs / 60 / 60 ≤ 24 := by omega
    have hminute : offset.natAbs / 60 % 60 ≤ 60 := by omega
    have heast : ((offset.natAbs / 60 / 60 : Nat) : Int) * 3600 + (offset.natAbs / 60 % 60 : Nat) * 60 =
        offset.natAbs := by omega
    have hcolon : Text.ofString ":" = [(':' : UInt8)] := rfl
    rw [offsetSuffix, if_neg (by simpa using hzero), offsetText, hcolon]
    simp only [List.append_assoc, List.cons_append, List.nil_append]
    by_cases hneg : offset < 0
    · have hwest : -(offset.natAbs : Int) = offset := by omega
      have hread := readOffset?_signed (s := '-') (.inr rfl) hhour hminute
      rw [heast, hwest] at hread
      rw [if_pos hneg]
      exact hread
    · have hsame : (offset.natAbs : Int) = offset := by omega
      have hread := readOffset?_signed (s := '+') (.inl rfl) hhour hminute
      rw [heast, hsame] at hread
      rw [if_neg hneg]
      exact hread

theorem endsFraction_offsetSuffix (offset : Int) : EndsFraction (offsetSuffix offset) := by
  unfold offsetSuffix offsetText
  split
  · rintro _ ⟨⟩
    decide
  · split
    · rintro _ ⟨⟩
      decide
    · rintro _ ⟨⟩
      decide

/-! ## Whole timestamps -/

theorem rfc3339_eq (t : Timestamp) : t.rfc3339 true = yearText t.clock.date.year ++
    clockTail ':' t.clock (fractionText t.nanos ++ offsetSuffix t.offset) := by
  have hdash : Text.ofString "-" = [('-' : UInt8)] := rfl
  have hT : Text.ofString "T" = [('T' : UInt8)] := rfl
  have hcolon : Text.ofString ":" = [(':' : UInt8)] := rfl
  simp only [rfc3339, clockTail, offsetSuffix, dateText, timeText, hdash, hT, hcolon, if_true,
    List.append_assoc, List.cons_append, List.nil_append]

/-- A timestamp is read as it was written. -/
theorem readRfc3339?_rfc3339 {t : Timestamp} (h : t.HasText) :
    readRfc3339? (t.rfc3339 true) = some t := by
  obtain ⟨year, hyear⟩ := Int.eq_ofNat_of_zero_le h.year_nonneg
  have hle := h.year_le
  have hfraction := fraction_fractionText h.nanos_lt (endsFraction_offsetSuffix t.offset)
  rw [rfc3339_eq, hyear, yearText_ofNat, readRfc3339?,
    readClock?_clockTail t.clock_valid hyear (by omega)]
  simp [hfraction, readOffset?_offsetSuffix h.offset_lt h.offset_minutes, ofClock_clock, guard]

theorem rfc3339?_eq_some {t : Timestamp} (h : t.HasText) : t.rfc3339? = some (t.rfc3339 true) := by
  have hoffset : t.offset.natAbs / 3600 < 24 := Nat.div_lt_of_lt_mul h.offset_lt
  simp [rfc3339?, h.year_nonneg, h.year_le, hoffset]

theorem isAscii_padded (w n : Nat) : (padded w n).IsAscii := by
  intro b hb
  have hdigit := isDigit_of_mem_padded hb
  simp only [Text.isDigit, Bool.and_eq_true, decide_eq_true_eq, UInt8.le_iff_toNat_le] at hdigit
  exact lt_of_le_of_lt hdigit.2 (by decide)

theorem isAscii_rfc3339 (t : Timestamp) : (t.rfc3339 true).IsAscii := by
  have hnil : Text.IsAscii [] := fun _ h => absurd h List.not_mem_nil
  have hpadded := isAscii_padded
  have hyear : (yearText t.clock.date.year).IsAscii := by
    rw [yearText]
    split
    · exact (hpadded 4 _).cons (by decide)
    · exact hpadded 4 _
  have hfraction : (fractionText t.nanos).IsAscii := by
    rw [fractionText]
    split
    · exact hnil
    · obtain ⟨k, hcut⟩ := trimEnd_append_zeros (padded 9 t.nanos)
      have hdigits : (Text.trimEnd (· == ('0' : UInt8)) (padded 9 t.nanos)).IsAscii := fun b hb =>
        hpadded 9 t.nanos b (hcut ▸ List.mem_append_left _ hb)
      exact hdigits.cons (by decide)
  have hoffset : (offsetSuffix t.offset).IsAscii := by
    have hsigned : ∀ s : UInt8, s.toNat < 0x80 → ∀ hours minutes,
        Text.IsAscii (s :: (padded 2 hours ++ (':' : UInt8) :: padded 2 minutes)) :=
      fun s hs hours minutes => ((hpadded 2 hours).append ((hpadded 2 minutes).cons (by decide))).cons hs
    rw [offsetSuffix, offsetText]
    simp only [List.append_assoc]
    split
    · exact hnil.cons (by decide)
    split
    · exact hsigned '-' (by decide) _ _
    · exact hsigned '+' (by decide) _ _
  rw [rfc3339_eq, clockTail]
  exact hyear.append (((hpadded 2 _).append (((hpadded 2 _).append (((hpadded 2 _).append
    (((hpadded 2 _).append (((hpadded 2 _).append (hfraction.append hoffset)).cons
      (by decide))).cons (by decide))).cons (by decide))).cons (by decide))).cons (by decide))

end LiteralAudit.Timestamp
