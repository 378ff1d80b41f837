import LiteralAudit.Proofs.Number.Digits
import LiteralAudit.Proofs.Time.Civil
import LiteralAudit.Time.Timestamp

/-!
# The names of runs

A run is named by the second of its timestamp in universal time. For years of four digits the name is
read back as that second (`readRunStamp?_runStamp`), and no other second has it, in whatever year
(`seconds_eq_of_runStamp_eq`).
-/

namespace LiteralAudit.Timestamp

/-! ## Numbers of a fixed width -/

theorem length_padded {w n : Nat} (hw : 0 < w) (h : n < 10 ^ w) :
    (padded w n).length = w := by
  have hle := (Text.length_ofNat_le_iff hw).2 h
  rw [padded, List.length_append, List.length_replicate]
  omega

theorem isDigit_of_mem_padded {w n : Nat} {b : UInt8} (h : b ∈ padded w n) :
    Text.isDigit b = true := by
  obtain h | h := List.mem_append.1 h
  · rw [List.eq_of_mem_replicate h]
    rfl
  · exact Text.isDigit_of_mem_ofNat h

theorem digits?_padded {w n : Nat} (hw : 0 < w) (h : n < 10 ^ w) (rest : Text) :
    digits? w (padded w n ++ rest) = some (n, rest) := by
  have hlen := length_padded hw h
  have htake : (padded w n ++ rest).take w = padded w n := by
    rw [List.take_append_of_le_length hlen.ge, List.take_of_length_le hlen.le]
  have hdrop : (padded w n ++ rest).drop w = rest := by
    rw [List.drop_append_of_le_length hlen.ge, List.drop_of_length_le hlen.le, List.nil_append]
  have hread : Number.readDigits? 10 (padded w n) = some n := Number.readDigits?_ofNat _ n
  simp [digits?, htake, hdrop, hlen, hread]

/-- An hour that has two digits is read like any other number of two digits. -/
theorem hour?_padded {n : Nat} (h : n < 100) (rest : Text) :
    hour? (padded 2 n ++ rest) = some (n, rest) := by
  have hdigits := digits?_padded (w := 2) (by decide) h rest
  have hisDigit : ∀ b ∈ padded 2 n, Text.isDigit b = true := fun _ => isDigit_of_mem_padded
  obtain ⟨a, b, hab⟩ := List.length_eq_two.1 (length_padded (w := 2) (by decide) h)
  rw [hab] at hdigits hisDigit ⊢
  have ha : Text.isDigit a = true := hisDigit a (by simp)
  have hb : Text.isDigit b = true := hisDigit b (by simp)
  simp only [hour?, List.cons_append, List.nil_append, ha, hb, if_true] at hdigits ⊢
  exact hdigits

/-! ## What a clock shows -/

/-- A date and a time of day as they can be. -/
structure Clock.Valid (c : Clock) : Prop where
  month_pos : 1 ≤ c.date.month
  month_le : c.date.month ≤ 12
  day_pos : 1 ≤ c.date.day
  day_le : c.date.day ≤ Time.daysIn c.date.year c.date.month
  hour_lt : c.hour < 24
  minute_lt : c.minute < 60
  second_lt : c.second < 60

theorem daysIn_le (year : Int) (month : Nat) : Time.daysIn year month ≤ 31 := by
  unfold Time.daysIn
  split
  · split <;> decide
  all_goals decide

theorem clock_valid (t : Timestamp) : t.clock.Valid := by
  obtain ⟨hmonth₀, hmonth, hday₀, hday⟩ := Time.civilFromDays_valid ((t.seconds + t.offset) / 86400)
  have hrest : ((t.seconds + t.offset) % 86400).toNat < 86400 := by omega
  refine ⟨hmonth₀, hmonth, hday₀, hday, ?_, ?_, ?_⟩
  · exact Nat.div_lt_of_lt_mul hrest
  · exact Nat.mod_lt _ (by decide)
  · exact Nat.mod_lt _ (by decide)

/-- A clock of universal time tells the second. -/
theorem ofClock_clock_utc (t : Timestamp) : ofClock t.utc.clock 0 0 = ⟨t.seconds, 0, 0⟩ := by
  unfold ofClock clock utc
  simp only [Time.daysFromCivil_civilFromDays, add_zero, mk.injEq, and_true]
  omega

/-! ## Names -/

/-- What a name says after the year. -/
def stampTail (c : Clock) : Text :=
  ('-' : UInt8) :: (padded 2 c.date.month ++ ('-' : UInt8) :: (padded 2 c.date.day ++
    ('T' : UInt8) :: (padded 2 c.hour ++ ('-' : UInt8) :: (padded 2 c.minute ++
      ('-' : UInt8) :: padded 2 c.second))))

theorem runStamp_eq (t : Timestamp) :
    t.runStamp = yearText t.utc.clock.date.year ++ stampTail t.utc.clock := by
  have hdash : Text.ofString "-" = [('-' : UInt8)] := rfl
  have hT : Text.ofString "T" = [('T' : UInt8)] := rfl
  simp only [runStamp, stampTail, dateText, timeText, hdash, hT, List.append_assoc,
    List.cons_append, List.nil_append]

/-- A name says nothing of a timestamp but its second. -/
theorem runStamp_congr {t t' : Timestamp} (h : t'.seconds = t.seconds) : t'.runStamp = t.runStamp := by
  have hclock : t'.utc.clock = t.utc.clock := by simp only [clock, utc, h]
  rw [runStamp, runStamp, hclock]

theorem expect?_cons (sep : UInt8) (rest : Text) : expect? sep (sep :: rest) = some rest := by
  simp [expect?]

theorem bind_of_eq {α β : Type} {o : Option α} {a : α} (h : o = some a) (f : α → Option β) :
    (o >>= f) = f a := by
  rw [h]
  rfl

/-- A date after its year and a time of day, with what follows. -/
def clockTail (sep : UInt8) (c : Clock) (rest : Text) : Text :=
  ('-' : UInt8) :: (padded 2 c.date.month ++ ('-' : UInt8) :: (padded 2 c.date.day ++
    ('T' : UInt8) :: (padded 2 c.hour ++ sep :: (padded 2 c.minute ++
      sep :: (padded 2 c.second ++ rest)))))

/-- A date and a time of day are read as they are written, with the fraction behind them. -/
theorem readClock?_clockTail {c : Clock} (h : c.Valid) {year : Nat} (hyear : c.date.year = year)
    (hshort : year < 10 ^ 4) (sep : UInt8) (rest : Text) :
    readClock? sep (padded 4 year ++ clockTail sep c rest) =
      some (c, (fraction rest).1, (fraction rest).2) := by
  obtain ⟨⟨y, month, day⟩, hour, minute, second⟩ := c
  obtain ⟨hmonth₀, hmonth, hday₀, hday, hhour, hminute, hsecond⟩ := h
  dsimp only at *
  subst hyear
  have hday₂ : day < 10 ^ 2 := lt_of_le_of_lt (hday.trans (daysIn_le _ _)) (by decide)
  have htwo : ∀ {n : Nat}, n < 10 ^ 2 → ∀ rest, digits? 2 (padded 2 n ++ rest) = some (n, rest) :=
    fun hn => digits?_padded (by decide) hn
  have hguard : ∀ {p : Prop} [Decidable p], p → (guard p : Option Unit) = some () := fun h => if_pos h
  unfold readClock? clockTail
  refine (bind_of_eq (digits?_padded (by decide) hshort _) _).trans ?_
  refine (bind_of_eq (expect?_cons _ _) _).trans ?_
  refine (bind_of_eq (htwo (n := month) (by omega) _) _).trans ?_
  refine (bind_of_eq (hguard (by simp [hmonth₀, hmonth])) _).trans ?_
  refine (bind_of_eq (expect?_cons _ _) _).trans ?_
  refine (bind_of_eq (htwo hday₂ _) _).trans ?_
  refine (bind_of_eq (expect?_cons _ _) _).trans ?_
  refine (bind_of_eq (hour?_padded (n := hour) (by omega) _) _).trans ?_
  refine (bind_of_eq (hguard hhour) _).trans ?_
  refine (bind_of_eq (expect?_cons _ _) _).trans ?_
  refine (bind_of_eq (htwo (n := minute) (by omega) _) _).trans ?_
  refine (bind_of_eq (hguard hminute) _).trans ?_
  refine (bind_of_eq (expect?_cons _ _) _).trans ?_
  refine (bind_of_eq (htwo (n := second) (by omega) _) _).trans ?_
  refine (bind_of_eq (hguard hsecond) _).trans ?_
  exact bind_of_eq (hguard (by simp [hday₀, hday])) _

theorem stampTail_eq (c : Clock) : stampTail c = clockTail '-' c [] := by
  rw [clockTail, List.append_nil]
  rfl

theorem readClock?_stamp {c : Clock} (h : c.Valid) {year : Nat} (hyear : c.date.year = year)
    (hshort : year < 10 ^ 4) : readClock? '-' (padded 4 year ++ stampTail c) = some (c, 0, []) := by
  rw [stampTail_eq]
  exact readClock?_clockTail h hyear hshort '-' []

theorem length_stampTail {c : Clock} (h : c.Valid) : (stampTail c).length = 15 := by
  have hday : c.date.day < 10 ^ 2 := lt_of_le_of_lt (h.day_le.trans (daysIn_le _ _)) (by decide)
  have htwo : ∀ {n : Nat}, n < 10 ^ 2 → (padded 2 n).length = 2 := length_padded (by decide)
  simp only [stampTail, List.length_cons, List.length_append, htwo hday,
    htwo (h.month_le.trans_lt (by decide)), htwo (h.hour_lt.trans (by decide)),
    htwo (h.minute_lt.trans (by decide)), htwo (h.second_lt.trans (by decide))]

/-- The year of a timestamp, in universal time, has at most four digits. -/
structure HasShortYear (t : Timestamp) : Prop where
  nonneg : 0 ≤ t.utc.clock.date.year
  le : t.utc.clock.date.year ≤ 9999

instance (t : Timestamp) : Decidable t.HasShortYear :=
  decidable_of_iff (0 ≤ t.utc.clock.date.year ∧ t.utc.clock.date.year ≤ 9999)
    ⟨fun ⟨nonneg, le⟩ => ⟨nonneg, le⟩, fun ⟨nonneg, le⟩ => ⟨nonneg, le⟩⟩

theorem yearText_ofNat (year : Nat) : yearText year = padded 4 year := by
  rw [yearText, if_neg (by omega)]
  rfl

theorem HasShortYear.exists_nat {t : Timestamp} (h : t.HasShortYear) :
    ∃ year : Nat, t.utc.clock.date.year = year ∧ year < 10 ^ 4 := by
  obtain ⟨year, hyear⟩ := Int.eq_ofNat_of_zero_le h.nonneg
  have hle := h.le
  exact ⟨year, hyear, by omega⟩

theorem HasShortYear.length_yearText {t : Timestamp} (h : t.HasShortYear) :
    (yearText t.utc.clock.date.year).length = 4 := by
  obtain ⟨year, hyear, hshort⟩ := h.exists_nat
  rw [hyear, yearText_ofNat, length_padded (by decide) hshort]

theorem readRunStamp?_runStamp {t : Timestamp} (h : t.HasShortYear) :
    readRunStamp? t.runStamp = some ⟨t.seconds, 0, 0⟩ := by
  obtain ⟨year, hyear, hshort⟩ := h.exists_nat
  rw [runStamp_eq, hyear, yearText_ofNat, readRunStamp?,
    readClock?_stamp t.utc.clock_valid hyear hshort, ← ofClock_clock_utc]
  rfl

/-- A year that is written by four digits is not negative, and not a greater one. -/
theorem hasShortYear_of_runStamp_eq {t t' : Timestamp} (h : t.HasShortYear)
    (hname : t'.runStamp = t.runStamp) : t'.HasShortYear := by
  obtain ⟨year, hyear, hshort⟩ := h.exists_nat
  have hlen : (padded 4 year).length = 4 := length_padded (by decide) hshort
  rw [runStamp_eq, runStamp_eq, hyear, yearText_ofNat] at hname
  obtain hneg | hnonneg := lt_or_ge t'.utc.clock.date.year 0
  · -- A minus sign stands where the other name has a digit.
    obtain ⟨b, rest, hpadded⟩ := List.exists_cons_of_length_pos (l := padded 4 year) (by omega)
    have hdigit : Text.isDigit b = true :=
      isDigit_of_mem_padded (w := 4) (n := year) (by rw [hpadded]; exact List.mem_cons_self)
    have hdash : Text.ofString "-" = [('-' : UInt8)] := rfl
    rw [yearText, if_pos hneg, hdash, hpadded] at hname
    have hhead : ('-' : UInt8) = b := (List.cons.inj hname).1
    subst hhead
    cases hdigit
  · obtain ⟨year', hyear'⟩ := Int.eq_ofNat_of_zero_le hnonneg
    have hlength := congrArg List.length hname
    rw [hyear', yearText_ofNat, List.length_append, List.length_append, hlen,
      length_stampTail t'.utc.clock_valid, length_stampTail t.utc.clock_valid] at hlength
    have hfits : (Text.ofNat year').length ≤ 4 := by
      rw [padded, List.length_append] at hlength
      omega
    rw [Text.length_ofNat_le_iff (by decide)] at hfits
    exact ⟨hnonneg, by omega⟩

theorem seconds_eq_of_runStamp_eq {t t' : Timestamp} (h : t.HasShortYear)
    (hname : t'.runStamp = t.runStamp) : t'.seconds = t.seconds := by
  have hread := readRunStamp?_runStamp (hasShortYear_of_runStamp_eq h hname)
  rw [hname, readRunStamp?_runStamp h] at hread
  exact (congrArg seconds (Option.some.inj hread)).symm

end LiteralAudit.Timestamp

/-!
## What is read as the name of a run

The reader of names is more lenient than their writer: it takes an hour of one digit, and a fraction of the
second behind the seconds. `readClock?_eq_some` inverts it: what is read is spelled in one of these ways.
Since a fraction is longer than the digit that an hour may lack, the length of a name tells whether it is
the one that is written for its time (`readRunStamp?_eq_some`).
-/

namespace LiteralAudit

/-! ## Digits -/

namespace Number

theorem eq_of_digitValue? {b : UInt8} {d : Nat} (h : digitValue? b = some d) (hd : d < 10) :
    b = UInt8.ofNat (48 + d) := by
  unfold digitValue? at h
  split at h
  · next hdigit =>
    obtain ⟨hlow, -⟩ := Text.toNat_of_isDigit hdigit
    rw [← Option.some.inj h, Nat.add_sub_cancel' hlow, UInt8.ofNat_toNat]
  · split at h
    · next hlower =>
      simp only [Text.isLower, Bool.and_eq_true, decide_eq_true_eq, UInt8.le_iff_toNat_le] at hlower
      have hten : 97 ≤ b.toNat := hlower.1
      cases h
      omega
    · split at h
      · next hupper =>
        simp only [Text.isUpper, Bool.and_eq_true, decide_eq_true_eq, UInt8.le_iff_toNat_le] at hupper
        have hten : 65 ≤ b.toNat := hupper.1
        cases h
        omega
      · cases h

/-- The last digit and the number before it. -/
theorem readDigits?_concat_eq_some {t : Text} {b : UInt8} {n : Nat}
    (h : readDigits? 10 (t ++ [b]) = some n) :
    ∃ n' d, readDigits? 10 t = some n' ∧ d < 10 ∧ b = UInt8.ofNat (48 + d) ∧ n = n' * 10 + d := by
  rw [readDigits?, List.foldl_append, List.foldl_cons, List.foldl_nil, ← readDigits?] at h
  split at h
  · next n' d hread hvalue =>
    split at h
    · next hd => exact ⟨n', d, hread, hd, eq_of_digitValue? hvalue hd, (Option.some.inj h).symm⟩
    · cases h
  · cases h

end Number

namespace Timestamp

theorem padded_concat {w n d : Nat} (hw : 0 < w) (hd : d < 10) :
    padded (w + 1) (n * 10 + d) = padded w n ++ Text.ofNat d := by
  by_cases hn : n = 0
  · have hzero : (Text.ofNat 0) = [('0' : UInt8)] := rfl
    have hlast := Text.length_ofNat_of_lt hd
    rw [hn, Nat.zero_mul, Nat.zero_add, padded, padded, hzero]
    simp only [hlast, Nat.add_sub_cancel, List.length_singleton]
    rw [← List.replicate_succ', Nat.sub_add_cancel hw]
  · have hten : 10 ≤ n * 10 + d := by omega
    have hfront : (n * 10 + d) / 10 = n := by omega
    have hlast : (n * 10 + d) % 10 = d := by omega
    have hlength := Text.length_ofNat_of_lt hd
    rw [padded, padded, Text.ofNat_of_ge hten, hfront, hlast]
    simp only [List.length_append, hlength, Nat.add_sub_add_right, List.append_assoc]

/-- Digits are those of the number that they write, with zeros before it. -/
theorem eq_padded_of_readDigits? {t : Text} {n : Nat} (h : Number.readDigits? 10 t = some n)
    (ht : t ≠ []) : t = padded t.length n ∧ n < 10 ^ t.length := by
  induction t using List.reverseRecOn generalizing n with
  | nil => exact absurd rfl ht
  | append_singleton t b ih =>
    obtain ⟨n', d, hread, hd, rfl, rfl⟩ := Number.readDigits?_concat_eq_some h
    rw [← Text.ofNat_of_lt hd, List.length_append, Text.length_ofNat_of_lt hd]
    by_cases hnil : t = []
    · subst hnil
      cases hread
      have hlength := Text.length_ofNat_of_lt hd
      simp [padded, hlength, hd]
    · obtain ⟨htext, hlt⟩ := ih hread hnil
      refine ⟨?_, ?_⟩
      · rw [padded_concat (List.length_pos_iff.2 hnil) hd, ← htext]
      · rw [pow_succ]
        omega

theorem digits?_eq_some {w n : Nat} {t rest : Text} (hw : 0 < w) (h : digits? w t = some (n, rest)) :
    t = padded w n ++ rest ∧ n < 10 ^ w := by
  unfold digits? at h
  split at h
  · next hlength =>
    obtain ⟨n', hread, heq⟩ := Option.map_eq_some_iff.1 h
    obtain ⟨rfl, rfl⟩ := Prod.mk.inj heq
    have hlength := beq_iff_eq.1 hlength
    have hnil : t.take w ≠ [] := List.length_pos_iff.1 (by omega)
    obtain ⟨htext, hlt⟩ := eq_padded_of_readDigits? hread hnil
    rw [hlength] at htext hlt
    exact ⟨by rw [← htext, List.take_append_drop], hlt⟩
  · cases h

/-- An hour has two digits or one. -/
theorem hour?_eq_some {t rest : Text} {n : Nat} (h : hour? t = some (n, rest)) :
    ∃ hour, t = hour ++ rest ∧ (hour = padded 2 n ∨ hour.length = 1) := by
  unfold hour? at h
  split at h
  · next a b more =>
    split at h
    · split at h
      · exact ⟨_, (digits?_eq_some (by decide) h).1, .inl rfl⟩
      · cases h
        exact ⟨[a], rfl, .inr rfl⟩
    · cases h
  · next a =>
    split at h
    · cases h
      exact ⟨[a], rfl, .inr rfl⟩
    · cases h
  · cases h

theorem expect?_eq_some {sep : UInt8} {t rest : Text} (h : expect? sep t = some rest) :
    t = sep :: rest := by
  unfold expect? at h
  split at h
  · split at h
    · next heq =>
      cases h
      rw [beq_iff_eq.1 heq]
    · cases h
  · cases h

/-- A fraction is a point or comma and digits, or there is none. -/
theorem exists_fraction (t : Text) : ∃ front, t = front ++ (fraction t).2 ∧
    (front = [] ∧ (fraction t).1 = 0 ∨ 2 ≤ front.length) := by
  unfold fraction
  split
  · next p d rest =>
    split
    · next hpoint =>
      have hdigit : Text.isDigit d = true := (Bool.and_eq_true_iff.1 hpoint).2
      refine ⟨p :: (d :: rest).takeWhile Text.isDigit, ?_, .inr ?_⟩
      · simp only [List.cons_append, List.cons.injEq, true_and]
        exact (List.prefix_iff_eq_append.1 (List.takeWhile_prefix _)).symm
      · rw [List.takeWhile_cons, if_pos hdigit]
        simp
    · exact ⟨[], rfl, .inl ⟨rfl, rfl⟩⟩
  · exact ⟨[], rfl, .inl ⟨rfl, rfl⟩⟩

/-! ## Dates and times of day -/

/-- A date after its year and a time of day, whose hour is written as it is given. -/
def clockTailAt (sep : UInt8) (hour : Text) (c : Clock) (rest : Text) : Text :=
  ('-' : UInt8) :: (padded 2 c.date.month ++ ('-' : UInt8) :: (padded 2 c.date.day ++
    ('T' : UInt8) :: (hour ++ sep :: (padded 2 c.minute ++ sep :: (padded 2 c.second ++ rest)))))

theorem length_clockTailAt {c : Clock} (h : c.Valid) (sep : UInt8) (hour rest : Text) :
    (clockTailAt sep hour c rest).length = 13 + hour.length + rest.length := by
  have hday : c.date.day < 10 ^ 2 := lt_of_le_of_lt (h.day_le.trans (daysIn_le _ _)) (by decide)
  have htwo : ∀ {n : Nat}, n < 10 ^ 2 → (padded 2 n).length = 2 := length_padded (by decide)
  simp only [clockTailAt, List.length_cons, List.length_append, htwo hday,
    htwo (h.month_le.trans_lt (by decide)), htwo (h.minute_lt.trans (by decide)),
    htwo (h.second_lt.trans (by decide))]
  omega

/-- What is read is a date and a time of day as they can be, written in their order. -/
theorem readClock?_eq_some {sep : UInt8} {t rest : Text} {c : Clock} {nanos : Nat}
    (h : readClock? sep t = some (c, nanos, rest)) : c.Valid ∧ ∃ year : Nat, c.date.year = year ∧
      year < 10 ^ 4 ∧ ∃ hour front, t = padded 4 year ++ clockTailAt sep hour c (front ++ rest) ∧
        (hour = padded 2 c.hour ∨ hour.length = 1) ∧ (front = [] ∧ nanos = 0 ∨ 2 ≤ front.length) := by
  simp only [readClock?, Option.bind_eq_bind, Option.bind_eq_some_iff, Prod.exists,
    Option.guard_eq_some', Bool.and_eq_true, decide_eq_true_eq, exists_const] at h
  obtain ⟨year, t₁, hyear, t₂, hdash, month, t₃, hmonth, ⟨hmonth₀, hmonth₁⟩, t₄, hdash', day, t₅, hday, t₆,
    hT, hour, t₇, hhour, hhour₁, t₈, hsep, minute, t₉, hminute, hminute₁, t₁₀, hsep', second, t₁₁, hsecond,
    hsecond₁, ⟨hday₀, hday₁⟩, heq⟩ := h
  cases heq
  obtain ⟨rfl, hshort⟩ := digits?_eq_some (by decide) hyear
  obtain rfl := expect?_eq_some hdash
  obtain ⟨rfl, -⟩ := digits?_eq_some (by decide) hmonth
  obtain rfl := expect?_eq_some hdash'
  obtain ⟨rfl, -⟩ := digits?_eq_some (by decide) hday
  obtain rfl := expect?_eq_some hT
  obtain ⟨hourText, rfl, hhourText⟩ := hour?_eq_some hhour
  obtain rfl := expect?_eq_some hsep
  obtain ⟨rfl, -⟩ := digits?_eq_some (by decide) hminute
  obtain rfl := expect?_eq_some hsep'
  obtain ⟨rfl, -⟩ := digits?_eq_some (by decide) hsecond
  obtain ⟨front, hfraction, hfront⟩ := exists_fraction t₁₁
  refine ⟨⟨hmonth₀, hmonth₁, hday₀, hday₁, hhour₁, hminute₁, hsecond₁⟩, year, rfl, hshort, hourText, front,
    ?_, hhourText, hfront⟩
  rw [← hfraction]
  rfl

/-! ## Names -/

/-- A clock shows the time that is put together from it. -/
theorem clock_utc_ofClock {c : Clock} (h : c.Valid) (nanos : Nat) :
    (ofClock c nanos 0).utc.clock = c := by
  have hhour := h.hour_lt
  have hminute := h.minute_lt
  have hsecond := h.second_lt
  have hdate := Time.civilFromDays_daysFromCivil h.month_pos h.month_le h.day_pos h.day_le
  obtain ⟨date, hour, minute, second⟩ := c
  dsimp only at *
  have hday : (Time.daysFromCivil date * 86400 + hour * 3600 + minute * 60 + second - 0 + 0) / 86400 =
      Time.daysFromCivil date := by
    omega
  have hrest : ((Time.daysFromCivil date * 86400 + hour * 3600 + minute * 60 + second - 0 + 0) %
      86400).toNat = hour * 3600 + minute * 60 + second := by
    omega
  simp only [clock, utc, ofClock, hday, hrest, hdate, Clock.mk.injEq, true_and]
  omega

/-- A name that is read is that of its time, unless it is longer or shorter. -/
theorem readRunStamp?_eq_some {s : Text} {t : Timestamp} (h : readRunStamp? s = some t) :
    t.HasShortYear ∧ t.offset = 0 ∧ (s = t.runStamp ↔ s.length = 19) := by
  simp only [readRunStamp?, Option.bind_eq_bind, Option.bind_eq_some_iff, Prod.exists,
    Option.guard_eq_some', List.isEmpty_iff, exists_const] at h
  obtain ⟨c, nanos, rest, hread, rfl, heq⟩ := h
  cases heq
  obtain ⟨hvalid, year, hyear, hshort, hour, front, rfl, hhour, hfront⟩ := readClock?_eq_some hread
  have hclock := clock_utc_ofClock hvalid nanos
  have hhas : (ofClock c nanos 0).HasShortYear := by
    constructor <;>
    · rw [hclock, hyear]
      omega
  have hstamp : (ofClock c nanos 0).runStamp = padded 4 year ++ stampTail c := by
    rw [runStamp_eq, hclock, hyear, yearText_ofNat]
  have hlength : (padded 4 year).length = 4 := length_padded (by decide) hshort
  have htail := length_stampTail hvalid
  refine ⟨hhas, rfl, ?_⟩
  rw [hstamp]
  constructor
  · intro heq
    rw [heq, List.length_append, hlength, htail]
  · intro hlen
    rw [List.length_append, hlength, length_clockTailAt hvalid, List.append_nil] at hlen
    obtain ⟨rfl, -⟩ | hlong := hfront
    · obtain rfl | hone := hhour
      · rw [stampTail_eq]
        rfl
      · rw [hone, List.length_nil] at hlen
        omega
    · -- The shortest fraction makes up for more than the digit that an hour may lack.
      have hpos : 1 ≤ hour.length := by
        obtain rfl | hone := hhour
        · exact (length_padded (w := 2) (by decide) (hvalid.hour_lt.trans (by decide))).ge.trans' (by decide)
        · exact hone.ge
      omega

/-- A year of more than four digits, or one before the year 0, is not read. -/
theorem length_of_readRunStamp?_runStamp {t t' : Timestamp} (h : readRunStamp? t'.runStamp = some t) :
    t'.runStamp.length = 19 := by
  simp only [readRunStamp?, Option.bind_eq_bind, Option.bind_eq_some_iff, Prod.exists] at h
  obtain ⟨c, nanos, rest, hread, -⟩ := h
  obtain ⟨-, year, -, hshort, hour, front, htext, -⟩ := readClock?_eq_some hread
  have hdigits : ∀ n, ∀ b ∈ padded 4 n, Text.isDigit b = true := fun _ _ => isDigit_of_mem_padded
  have hdash : Text.isDigit ('-' : UInt8) = false := rfl
  have hlength : (padded 4 year).length = 4 := length_padded (by decide) hshort
  -- What stands before the first dash is the year.
  have hyear := congrArg (List.takeWhile Text.isDigit) htext
  rw [runStamp_eq, clockTailAt, stampTail, List.takeWhile_append_of_pos (hdigits year),
    List.takeWhile_cons, hdash, if_neg Bool.false_ne_true, List.append_nil] at hyear
  rw [runStamp_eq, List.length_append, length_stampTail t'.utc.clock_valid]
  obtain hneg | hnonneg := lt_or_ge t'.utc.clock.date.year 0
  · have hsign : Text.ofString "-" = [('-' : UInt8)] := rfl
    rw [yearText, if_pos hneg, hsign, List.append_assoc, List.singleton_append, List.takeWhile_cons, hdash,
      if_neg Bool.false_ne_true] at hyear
    rw [← hyear] at hlength
    cases hlength
  · obtain ⟨year', hyear'⟩ := Int.eq_ofNat_of_zero_le hnonneg
    rw [hyear', yearText_ofNat] at hyear ⊢
    rw [List.takeWhile_append_of_pos (hdigits year'), List.takeWhile_cons, hdash,
      if_neg Bool.false_ne_true, List.append_nil] at hyear
    rw [hyear, hlength]

end Timestamp

end LiteralAudit
