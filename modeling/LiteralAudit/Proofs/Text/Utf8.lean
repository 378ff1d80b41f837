import LiteralAudit.Text.Utf8
import Mathlib

/-!
# Characters and their bytes

UTF-8 spells a character by one to four bytes (`Rune.Spelled`). `Rune.first` reads what is spelled,
whatever follows (`Rune.first_of_spelled`), and reads nothing else as a character
(`Rune.spelled_first`). So a text is a sequence of spelled characters and stray bytes
(`Text.rune_induction`).

* `Text.chars_ofChars`: characters are read from their bytes.
* `Text.mended_eq_self_iff`: reading a text and spelling what was read gives the text back exactly when
  it is valid UTF-8.
* `Text.runes_append_ascii`: a byte below `0x80` belongs to no other character, so that texts joined by
  one are read apart.
-/

namespace LiteralAudit

namespace Rune

/-! ## The bytes of a character -/

/-- The bytes of a character: the six bits that a byte after the first has count from `0x80`. -/
inductive Spelled : Char → Text → Prop where
  | one {n : Nat} : n < 0x80 → Spelled (Char.ofNat n) [UInt8.ofNat n]
  | two {x y : Nat} : 2 ≤ x → x < 32 → y < 64 →
      Spelled (Char.ofNat (x * 64 + y)) [UInt8.ofNat (x + 0xC0), UInt8.ofNat (y + 0x80)]
  | three {x y z : Nat} : x < 16 → y < 64 → z < 64 → (x = 0 → 32 ≤ y) → (x = 13 → y < 32) →
      Spelled (Char.ofNat ((x * 64 + y) * 64 + z))
        [UInt8.ofNat (x + 0xE0), UInt8.ofNat (y + 0x80), UInt8.ofNat (z + 0x80)]
  | four {x y z w : Nat} : x < 5 → y < 64 → z < 64 → w < 64 → (x = 0 → 16 ≤ y) → (x = 4 → y < 16) →
      Spelled (Char.ofNat (((x * 64 + y) * 64 + z) * 64 + w))
        [UInt8.ofNat (x + 0xF0), UInt8.ofNat (y + 0x80), UInt8.ofNat (z + 0x80),
          UInt8.ofNat (w + 0x80)]

namespace Spelled

theorem exists_bytes (c : Char) : ∃ bytes, Spelled c bytes := by
  have hvalid : c.toNat < 0xD800 ∨ 0xDFFF < c.toNat ∧ c.toNat < 0x110000 := c.valid
  rw [← Char.ofNat_toNat c]
  generalize c.toNat = v at hvalid
  by_cases h₁ : v < 0x80
  · exact ⟨_, .one h₁⟩
  by_cases h₂ : v < 0x800
  · have hv : v = v / 64 * 64 + v % 64 := by omega
    rw [hv]
    exact ⟨_, .two (by omega) (by omega) (by omega)⟩
  by_cases h₃ : v < 0x10000
  · have hv : v = (v / 4096 * 64 + v / 64 % 64) * 64 + v % 64 := by omega
    rw [hv]
    exact ⟨_, .three (by omega) (by omega) (by omega) (by omega) (by omega)⟩
  · have hv : v = ((v / 262144 * 64 + v / 4096 % 64) * 64 + v / 64 % 64) * 64 + v % 64 := by omega
    rw [hv]
    exact ⟨_, .four (by omega) (by omega) (by omega) (by omega) (by omega) (by omega)⟩

theorem ofChar_eq {c : Char} {bytes : Text} (h : Spelled c bytes) : Text.ofChar c = bytes := by
  have hval : ∀ {n : Nat}, n.isValidChar → (Char.ofNat n).val.toNat = n := by
    intro n hn
    exact (Char.toNat_ofNat n).trans (if_pos hn)
  unfold Text.ofChar String.utf8EncodeChar
  cases h with
  | one h =>
    rw [hval (.inl (by omega))]
    dsimp only
    rw [if_pos (by omega)]
  | @two x y hx hx' hy =>
    have h₁ : (x * 64 + y) / 64 % 32 = x := by omega
    have h₂ : (x * 64 + y) % 64 = y := by omega
    rw [hval (.inl (by omega))]
    dsimp only
    rw [if_neg (by omega), if_pos (by omega), h₁, h₂]
  | @three x y z hx hy hz hlow hhigh =>
    have hvalid : ((x * 64 + y) * 64 + z).isValidChar := by
      show _ ∨ _
      omega
    have h₁ : ((x * 64 + y) * 64 + z) / 4096 % 16 = x := by omega
    have h₂ : ((x * 64 + y) * 64 + z) / 64 % 64 = y := by omega
    have h₃ : ((x * 64 + y) * 64 + z) % 64 = z := by omega
    rw [hval hvalid]
    dsimp only
    rw [if_neg (by omega), if_neg (by omega), if_pos (by omega), h₁, h₂, h₃]
  | @four x y z w hx hy hz hw hlow hhigh =>
    have hvalid : (((x * 64 + y) * 64 + z) * 64 + w).isValidChar := by
      show _ ∨ _
      omega
    have h₁ : (((x * 64 + y) * 64 + z) * 64 + w) / 262144 % 8 = x := by omega
    have h₂ : (((x * 64 + y) * 64 + z) * 64 + w) / 4096 % 64 = y := by omega
    have h₃ : (((x * 64 + y) * 64 + z) * 64 + w) / 64 % 64 = z := by omega
    have h₄ : (((x * 64 + y) * 64 + z) * 64 + w) % 64 = w := by omega
    rw [hval hvalid]
    dsimp only
    rw [if_neg (by omega), if_neg (by omega), if_neg (by omega), h₁, h₂, h₃, h₄]

theorem ofChar (c : Char) : Spelled c (Text.ofChar c) := by
  obtain ⟨bytes, h⟩ := exists_bytes c
  rwa [h.ofChar_eq]

/-- The bytes after the first one go on with a character and start none. -/
theorem continues_of_mem_tail {c : Char} {b d : UInt8} {tail : Text} (h : Spelled c (b :: tail))
    (hd : d ∈ tail) : 0x80 ≤ d.toNat ∧ d.toNat < 0xC2 := by
  have hbyte : ∀ {n : Nat}, n < 64 →
      0x80 ≤ (UInt8.ofNat (n + 0x80)).toNat ∧ (UInt8.ofNat (n + 0x80)).toNat < 0xC2 := by
    intro n hn
    rw [UInt8.toNat_ofNat']
    omega
  cases h with
  | one => cases hd
  | two _ _ hy =>
    simp only [List.mem_singleton] at hd
    exact hd ▸ hbyte hy
  | three _ hy hz =>
    simp only [List.mem_cons, List.not_mem_nil, or_false] at hd
    obtain rfl | rfl := hd
    exacts [hbyte hy, hbyte hz]
  | four _ hy hz hw =>
    simp only [List.mem_cons, List.not_mem_nil, or_false] at hd
    obtain rfl | rfl | rfl := hd
    exacts [hbyte hy, hbyte hz, hbyte hw]

/-- The bytes after the first one are not those of ASCII characters. -/
theorem ge_of_mem_tail {c : Char} {b d : UInt8} {tail : Text} (h : Spelled c (b :: tail))
    (hd : d ∈ tail) : 0x80 ≤ d.toNat := (h.continues_of_mem_tail hd).1

/-- An ASCII character is one byte below `0x80`, and every other one has none such. -/
theorem lt_iff_tail_eq_nil {c : Char} {b : UInt8} {tail : Text} (h : Spelled c (b :: tail)) :
    b.toNat < 0x80 ↔ tail = [] := by
  cases h with
  | one h =>
    rw [UInt8.toNat_ofNat']
    exact iff_of_true (by omega) rfl
  | two | three | four =>
    rw [UInt8.toNat_ofNat']
    exact iff_of_false (by omega) (List.cons_ne_nil _ _)

theorem ge_of_tail_ne_nil {c : Char} {b : UInt8} {tail : Text} (h : Spelled c (b :: tail))
    (htail : tail ≠ []) : ∀ d ∈ b :: tail, 0x80 ≤ d.toNat :=
  List.forall_mem_cons.2 ⟨not_lt.1 (mt h.lt_iff_tail_eq_nil.1 htail), fun _ => h.ge_of_mem_tail⟩

/-- U+FFFD that is spelled is no stray byte. -/
theorem not_stray {c : Char} {b : UInt8} {tail : Text} (h : Spelled c (b :: tail)) :
    (⟨c, tail.length + 1⟩ : Rune).isStray = false := by
  cases h with
  | @one n h =>
    have hne : Char.ofNat n ≠ replacement := by
      intro heq
      have hval := congrArg Char.toNat heq
      rw [Char.toNat_ofNat, if_pos (.inl (by omega))] at hval
      have hreplacement : replacement.toNat = 0xFFFD := rfl
      omega
    simp [isStray, hne]
  | two => rfl
  | three => rfl
  | four => rfl

end Spelled

/-! ## Reading a character -/

theorem toNat_byte {n : Nat} (h : n < 256) : (UInt8.ofNat n).toNat = n := by
  rw [UInt8.toNat_ofNat', Nat.mod_eq_of_lt h]

theorem byte_lt_iff {n : Nat} (h : n < 256) {m : UInt8} : UInt8.ofNat n < m ↔ n < m.toNat := by
  rw [UInt8.lt_iff_toNat_lt, toNat_byte h]

theorem byte_beq {n : Nat} (h : n < 256) {m : UInt8} :
    (UInt8.ofNat n == m) = decide (n = m.toNat) := by
  rw [Bool.eq_iff_iff, beq_iff_eq, decide_eq_true_eq, ← UInt8.toNat_inj, toNat_byte h]

theorem tail?_eq_some_iff {lo hi b : UInt8} {n : Nat} (hlo : 0x80 ≤ lo.toNat) (hhi : hi.toNat < 0xC0) :
    tail? lo hi b = some n ↔
      b = UInt8.ofNat (n + 0x80) ∧ n < 64 ∧ lo.toNat ≤ n + 0x80 ∧ n + 0x80 ≤ hi.toNat := by
  simp only [tail?, Bool.and_eq_true, decide_eq_true_eq, Option.ite_none_right_eq_some,
    Option.some.injEq, UInt8.le_iff_toNat_le, ← UInt8.toNat_inj, UInt8.toNat_ofNat']
  omega

theorem tail?_continuing_iff {b : UInt8} {n : Nat} :
    tail? 0x80 0xBF b = some n ↔ b = UInt8.ofNat (n + 0x80) ∧ n < 64 := by
  rw [tail?_eq_some_iff (by decide) (by decide)]
  refine and_congr_right fun _ => and_iff_left_of_imp fun hn => ⟨Nat.le_add_left _ _, ?_⟩
  exact Nat.le_of_lt_succ (Nat.add_lt_add_right hn 0x80)

/-- A character is read from its bytes, whatever follows them. -/
theorem first_of_spelled {c : Char} {b : UInt8} {tail : Text} (h : Spelled c (b :: tail))
    (rest : Text) : first b (tail ++ rest) = ⟨c, tail.length + 1⟩ := by
  unfold first
  cases h with
  | @one n h =>
    have hn : n < 256 := by omega
    rw [if_pos ((byte_lt_iff hn).2 (by simpa using h)), toNat_byte hn]
    rfl
  | @two x y hx hx' hy =>
    have hn : x + 0xC0 < 256 := by omega
    have hc : tail? 0x80 0xBF (UInt8.ofNat (y + 0x80)) = some y :=
      tail?_continuing_iff.2 ⟨rfl, hy⟩
    simp only [List.cons_append, List.nil_append, byte_lt_iff hn, toNat_byte hn, hc,
      UInt8.reduceToNat, Nat.add_sub_cancel]
    rw [if_neg (by omega), if_neg (by omega), if_pos (by omega)]
    rfl
  | @three x y z hx hy hz hlow hhigh =>
    have hn : x + 0xE0 < 256 := by omega
    have h₀ : x + 0xE0 = 0xE0 ↔ x = 0 := by omega
    have h₁ : x + 0xE0 = 0xED ↔ x = 13 := by omega
    have hc : tail? (if x = 0 then 0xA0 else 0x80) (if x = 13 then 0x9F else 0xBF)
        (UInt8.ofNat (y + 0x80)) = some y := by
      refine (tail?_eq_some_iff ?_ ?_).2 ⟨rfl, hy, ?_, ?_⟩ <;> split <;> simp <;> omega
    have hd : tail? 0x80 0xBF (UInt8.ofNat (z + 0x80)) = some z :=
      tail?_continuing_iff.2 ⟨rfl, hz⟩
    simp only [List.cons_append, List.nil_append, byte_lt_iff hn, byte_beq hn, toNat_byte hn,
      UInt8.reduceToNat, Nat.add_sub_cancel, decide_eq_true_eq, h₀, h₁, hc, hd]
    rw [if_neg (by omega), if_neg (by omega), if_neg (by omega), if_pos (by omega)]
    rfl
  | @four x y z w hx hy hz hw hlow hhigh =>
    have hn : x + 0xF0 < 256 := by omega
    have h₀ : x + 0xF0 = 0xF0 ↔ x = 0 := by omega
    have h₁ : x + 0xF0 = 0xF4 ↔ x = 4 := by omega
    have hc : tail? (if x = 0 then 0x90 else 0x80) (if x = 4 then 0x8F else 0xBF)
        (UInt8.ofNat (y + 0x80)) = some y := by
      refine (tail?_eq_some_iff ?_ ?_).2 ⟨rfl, hy, ?_, ?_⟩ <;> split <;> simp <;> omega
    have hd : tail? 0x80 0xBF (UInt8.ofNat (z + 0x80)) = some z :=
      tail?_continuing_iff.2 ⟨rfl, hz⟩
    have he : tail? 0x80 0xBF (UInt8.ofNat (w + 0x80)) = some w :=
      tail?_continuing_iff.2 ⟨rfl, hw⟩
    simp only [List.cons_append, List.nil_append, byte_lt_iff hn, byte_beq hn, toNat_byte hn,
      UInt8.reduceToNat, Nat.add_sub_cancel, decide_eq_true_eq, h₀, h₁, hc, hd, he]
    rw [if_neg (by omega), if_neg (by omega), if_neg (by omega), if_neg (by omega),
      if_pos (by omega)]
    rfl

/-- What is not a stray byte is a character by its bytes. -/
theorem spelled_first {b : UInt8} {rest : Text} (h : (first b rest).isStray = false) :
    ∃ tail after, rest = tail ++ after ∧ Spelled (first b rest).char (b :: tail) ∧
      (first b rest).width = tail.length + 1 := by
  have hstray : stray.isStray ≠ false := by decide
  generalize hr : first b rest = r at h ⊢
  unfold first at hr
  simp only [UInt8.lt_iff_toNat_lt, UInt8.reduceToNat] at hr
  have hb : b = UInt8.ofNat b.toNat := UInt8.ofNat_toNat.symm
  have hmax : b.toNat < 256 := b.toNat_lt
  generalize b.toNat = n at *
  subst hb
  split at hr
  · next hlt =>
    subst hr
    exact ⟨[], rest, rfl, .one hlt, rfl⟩
  split at hr
  · exact absurd (hr ▸ h) hstray
  split at hr
  · obtain ⟨k, rfl⟩ : ∃ k, n = k + 0xC0 := ⟨n - 0xC0, by omega⟩
    split at hr
    · split at hr
      · next hc =>
        obtain ⟨rfl, hy⟩ := tail?_continuing_iff.1 hc
        rw [Nat.add_sub_cancel] at hr
        subst hr
        exact ⟨[_], _, rfl, .two (by omega) (by omega) hy, rfl⟩
      · exact absurd (hr ▸ h) hstray
    · exact absurd (hr ▸ h) hstray
  split at hr
  · obtain ⟨k, rfl⟩ : ∃ k, n = k + 0xE0 := ⟨n - 0xE0, by omega⟩
    have h₀ : k + 0xE0 = 0xE0 ↔ k = 0 := by omega
    have h₁ : k + 0xE0 = 0xED ↔ k = 13 := by omega
    split at hr
    · split at hr
      · next hc hd =>
        simp only [byte_beq hmax, UInt8.reduceToNat, decide_eq_true_eq, h₀, h₁] at hc
        rw [tail?_eq_some_iff (by split <;> simp) (by split <;> simp)] at hc
        obtain ⟨rfl, hy, hlow, hhigh⟩ := hc
        obtain ⟨rfl, hz⟩ := tail?_continuing_iff.1 hd
        rw [Nat.add_sub_cancel] at hr
        subst hr
        refine ⟨[_, _], _, rfl, .three (by omega) hy hz ?_ ?_, rfl⟩
        · rintro rfl
          simpa using hlow
        · rintro rfl
          simp at hhigh
          omega
      · exact absurd (hr ▸ h) hstray
    · exact absurd (hr ▸ h) hstray
  split at hr
  · obtain ⟨k, rfl⟩ : ∃ k, n = k + 0xF0 := ⟨n - 0xF0, by omega⟩
    have h₀ : k + 0xF0 = 0xF0 ↔ k = 0 := by omega
    have h₁ : k + 0xF0 = 0xF4 ↔ k = 4 := by omega
    split at hr
    · split at hr
      · next hc hd he =>
        simp only [byte_beq hmax, UInt8.reduceToNat, decide_eq_true_eq, h₀, h₁] at hc
        rw [tail?_eq_some_iff (by split <;> simp) (by split <;> simp)] at hc
        obtain ⟨rfl, hy, hlow, hhigh⟩ := hc
        obtain ⟨rfl, hz⟩ := tail?_continuing_iff.1 hd
        obtain ⟨rfl, hw⟩ := tail?_continuing_iff.1 he
        rw [Nat.add_sub_cancel] at hr
        subst hr
        refine ⟨[_, _, _], _, rfl, .four (by omega) hy hz hw ?_ ?_, rfl⟩
        · rintro rfl
          simpa using hlow
        · rintro rfl
          simp at hhigh
          omega
      · exact absurd (hr ▸ h) hstray
    · exact absurd (hr ▸ h) hstray
  · exact absurd (hr ▸ h) hstray

end Rune

namespace Text

/-! ## Texts as characters and stray bytes -/

theorem runesFrom_length (tail rest : Text) : runesFrom tail.length (tail ++ rest) = runes rest := by
  induction tail with
  | nil => rfl
  | cons b tail ih => exact ih

theorem runes_spelled {c : Char} {b : UInt8} {tail : Text} (h : Rune.Spelled c (b :: tail))
    (rest : Text) : runes (b :: tail ++ rest) = ⟨c, tail.length + 1⟩ :: runes rest := by
  show Rune.first b (tail ++ rest) :: runesFrom ((Rune.first b (tail ++ rest)).width - 1) _ = _
  rw [Rune.first_of_spelled h rest]
  exact congrArg _ (runesFrom_length tail rest)

theorem eq_stray_of_isStray {r : Rune} (h : r.isStray = true) : r = Rune.stray := by
  obtain ⟨c, w⟩ := r
  simp only [Rune.isStray, Bool.and_eq_true, beq_iff_eq] at h
  rw [h.1, h.2]
  rfl

theorem runes_stray {b : UInt8} {rest : Text} (h : (Rune.first b rest).isStray = true) :
    runes (b :: rest) = Rune.stray :: runes rest := by
  show Rune.first b rest :: runesFrom ((Rune.first b rest).width - 1) rest = _
  rw [eq_stray_of_isStray h]
  rfl

/-- Every text is a sequence of spelled characters and stray bytes. -/
theorem rune_induction {P : Text → Prop} (nil : P [])
    (spelled : ∀ c b tail rest, Rune.Spelled c (b :: tail) → P rest → P (b :: tail ++ rest))
    (stray : ∀ b rest, (Rune.first b rest).isStray = true → P rest → P (b :: rest)) (t : Text) : P t := by
  induction hlen : t.length using Nat.strongRecOn generalizing t with
  | ind n ih =>
    cases t with
    | nil => exact nil
    | cons b rest =>
      subst hlen
      cases hstray : (Rune.first b rest).isStray with
      | true => exact stray b rest hstray (ih _ (by simp) rest rfl)
      | false =>
        obtain ⟨tail, after, rfl, hspelled, -⟩ := Rune.spelled_first hstray
        exact spelled _ b tail after hspelled (ih _ (by simp) after rfl)

theorem isUtf8_spelled {c : Char} {b : UInt8} {tail : Text} (h : Rune.Spelled c (b :: tail))
    (rest : Text) : isUtf8 (b :: tail ++ rest) = rest.isUtf8 := by
  rw [isUtf8, runes_spelled h, List.all_cons, h.not_stray]
  rfl

/-- A byte that goes on with a character is no text by itself, whatever follows. -/
theorem isUtf8_cons_continuing {b : UInt8} (h : 0x80 ≤ b.toNat ∧ b.toNat < 0xC2) (rest : Text) :
    isUtf8 (b :: rest) = false := by
  have hfirst : Rune.first b rest = Rune.stray := by
    unfold Rune.first
    rw [if_neg (by rw [UInt8.lt_iff_toNat_lt]; exact not_lt.2 h.1),
      if_pos (by rw [UInt8.lt_iff_toNat_lt]; exact h.2)]
  rw [isUtf8, runes_stray (by rw [hfirst]; rfl)]
  rfl

/-- Valid UTF-8 starts with a character. -/
theorem exists_spelled {t : Text} (h : t.isUtf8 = true) :
    t = [] ∨ ∃ c b tail rest,
      t = b :: tail ++ rest ∧ Rune.Spelled c (b :: tail) ∧ isUtf8 rest = true := by
  induction t using rune_induction with
  | nil => exact .inl rfl
  | spelled c b tail rest hspelled _ =>
    rw [isUtf8_spelled hspelled] at h
    exact .inr ⟨c, b, tail, rest, rfl, hspelled, h⟩
  | stray b rest hstray =>
    rw [isUtf8, runes_stray hstray] at h
    cases h

/-- The text with U+FFFD, spelled, for each stray byte. -/
def mended (t : Text) : Text := ofChars t.chars

theorem exists_ofChar (c : Char) : ∃ b tail, ofChar c = b :: tail :=
  List.exists_cons_of_ne_nil String.utf8EncodeChar_ne_nil

theorem runes_ofChar_append (c : Char) (rest : Text) :
    runes (ofChar c ++ rest) = ⟨c, (ofChar c).length⟩ :: runes rest := by
  obtain ⟨b, tail, hbytes⟩ := exists_ofChar c
  have hspelled : Rune.Spelled c (b :: tail) := hbytes ▸ Rune.Spelled.ofChar c
  rw [hbytes, runes_spelled hspelled, List.length_cons]

theorem ofChars_cons (c : Char) (cs : List Char) : ofChars (c :: cs) = ofChar c ++ ofChars cs := rfl

theorem ofChars_append (cs ds : List Char) : ofChars (cs ++ ds) = ofChars cs ++ ofChars ds :=
  List.flatMap_append

theorem ofChars_replicate {c : Char} {b : UInt8} (h : ofChar c = [b]) (n : Nat) :
    ofChars (List.replicate n c) = List.replicate n b := by
  induction n with
  | zero => rfl
  | succ n ih => rw [List.replicate_succ, ofChars_cons, h, ih, List.singleton_append, List.replicate_succ]

theorem chars_ofChars_append (cs : List Char) (rest : Text) :
    chars (ofChars cs ++ rest) = cs ++ chars rest := by
  induction cs with
  | nil => rfl
  | cons c cs ih =>
    rw [ofChars_cons, List.append_assoc, chars, runes_ofChar_append, List.map_cons, ← chars, ih]
    rfl

/-- Characters are read from their bytes. -/
theorem chars_ofChars (cs : List Char) : chars (ofChars cs) = cs := by
  have h := chars_ofChars_append cs []
  rwa [List.append_nil, show chars [] = [] from rfl, List.append_nil] at h

theorem isUtf8_ofChars (cs : List Char) : (ofChars cs).isUtf8 = true := by
  induction cs with
  | nil => rfl
  | cons c cs ih =>
    obtain ⟨b, tail, hbytes⟩ := exists_ofChar c
    have hspelled : Rune.Spelled c (b :: tail) := hbytes ▸ Rune.Spelled.ofChar c
    rw [isUtf8, ofChars_cons, hbytes, runes_spelled hspelled, List.all_cons, hspelled.not_stray]
    exact ih

/-- Valid UTF-8 is what spells its characters. -/
theorem mended_eq_self {t : Text} (h : t.isUtf8 = true) : t.mended = t := by
  induction t using rune_induction with
  | nil => rfl
  | spelled c b tail rest hspelled ih =>
    rw [isUtf8, runes_spelled hspelled, List.all_cons, Bool.and_eq_true] at h
    rw [mended, chars, runes_spelled hspelled, List.map_cons, ofChars_cons, hspelled.ofChar_eq]
    exact congrArg _ (ih h.2)
  | stray b rest hstray ih =>
    rw [isUtf8, runes_stray hstray] at h
    cases h

theorem mended_eq_self_iff (t : Text) : t.mended = t ↔ t.isUtf8 = true :=
  ⟨fun h => h ▸ isUtf8_ofChars t.chars, mended_eq_self⟩

/-! ## ASCII -/

/-- Every byte is that of an ASCII character. -/
def IsAscii (t : Text) : Prop := ∀ b ∈ t, b.toNat < 0x80

theorem IsAscii.cons {b : UInt8} {t : Text} (hb : b.toNat < 0x80) (ht : IsAscii t) : IsAscii (b :: t) :=
  List.forall_mem_cons.2 ⟨hb, ht⟩

theorem IsAscii.append {s t : Text} (hs : IsAscii s) (ht : IsAscii t) : IsAscii (s ++ t) :=
  List.forall_mem_append.2 ⟨hs, ht⟩

theorem IsAscii.isUtf8 {t : Text} (h : IsAscii t) : t.isUtf8 = true := by
  induction t with
  | nil => rfl
  | cons b t ih =>
    have hspelled := Rune.Spelled.one (h b List.mem_cons_self)
    rw [UInt8.ofNat_toNat] at hspelled
    have hrunes := runes_spelled hspelled t
    rw [List.cons_append, List.nil_append] at hrunes
    rw [Text.isUtf8, hrunes, List.all_cons, hspelled.not_stray]
    exact ih fun d hd => h d (List.mem_cons_of_mem b hd)

/-! ## Texts joined by an ASCII character -/

/-- What is stray stays so before a byte that belongs to no other character. -/
theorem isStray_append_ascii {b d : UInt8} {rest more : Text} (hd : d.toNat < 0x80)
    (h : (Rune.first b rest).isStray = true) :
    (Rune.first b (rest ++ d :: more)).isStray = true := by
  cases hstray : (Rune.first b (rest ++ d :: more)).isStray with
  | true => rfl
  | false =>
    exfalso
    obtain ⟨tail, after, hcut, hspelled, -⟩ := Rune.spelled_first hstray
    have hnot : d ∉ tail := fun hmem => absurd (hspelled.ge_of_mem_tail hmem) (by omega)
    obtain ⟨gap, rfl, -⟩ | ⟨gap, rfl, hgap⟩ := List.append_eq_append_iff.1 hcut
    · cases gap with
      | nil =>
        rw [List.append_nil] at hspelled
        have hread := Rune.first_of_spelled hspelled []
        rw [List.append_nil] at hread
        rw [hread, hspelled.not_stray] at h
        cases h
      | cons x gap =>
        simp_all
    · rw [Rune.first_of_spelled hspelled gap, hspelled.not_stray] at h
      cases h

theorem runes_append_ascii (s : Text) {d : UInt8} (hd : d.toNat < 0x80) (more : Text) :
    runes (s ++ d :: more) = runes s ++ runes (d :: more) := by
  induction s using rune_induction with
  | nil => rfl
  | spelled c b tail rest hspelled ih =>
    rw [List.append_assoc, runes_spelled hspelled, runes_spelled hspelled, ih]
    rfl
  | stray b rest hstray ih =>
    rw [List.cons_append, runes_stray (isStray_append_ascii hd hstray), runes_stray hstray, ih]
    rfl

/-- Texts joined by an ASCII character are mended each for itself. -/
theorem mended_append_ascii (s : Text) {d : UInt8} (hd : d.toNat < 0x80) (more : Text) :
    (s ++ d :: more).mended = s.mended ++ d :: more.mended := by
  have hspelled := Rune.Spelled.one hd
  rw [UInt8.ofNat_toNat] at hspelled
  have hrunes := runes_spelled hspelled more
  rw [List.cons_append, List.nil_append] at hrunes
  rw [mended, chars, runes_append_ascii s hd, List.map_append, ofChars_append, hrunes, List.map_cons,
    ofChars_cons, hspelled.ofChar_eq]
  rfl

theorem isUtf8_mended (t : Text) : t.mended.isUtf8 = true := isUtf8_ofChars t.chars

/-! ## Valid texts and their parts -/

/-- Behind valid UTF-8, a text is read as if it stood alone. -/
theorem isUtf8_append {s : Text} (hs : s.isUtf8 = true) (t : Text) : (s ++ t).isUtf8 = t.isUtf8 := by
  induction s using rune_induction with
  | nil => rfl
  | spelled c b tail rest hspelled ih =>
    rw [isUtf8, runes_spelled hspelled, List.all_cons, Bool.and_eq_true] at hs
    rw [List.append_assoc, isUtf8, runes_spelled hspelled, List.all_cons, hspelled.not_stray]
    exact ih hs.2
  | stray b rest hstray ih =>
    rw [isUtf8, runes_stray hstray] at hs
    cases hs

theorem isUtf8_cons_ascii {d : UInt8} (hd : d.toNat < 0x80) (t : Text) : isUtf8 (d :: t) = t.isUtf8 :=
  isUtf8_append (IsAscii.isUtf8 (.cons hd (List.forall_mem_nil _))) t

/-- An ASCII character cuts a text: the two sides are valid each for itself. -/
theorem isUtf8_append_ascii (s : Text) {d : UInt8} (hd : d.toNat < 0x80) (t : Text) :
    (s ++ d :: t).isUtf8 = (s.isUtf8 && t.isUtf8) := by
  rw [isUtf8, runes_append_ascii s hd, List.all_append, ← isUtf8, ← isUtf8, isUtf8_cons_ascii hd]

/-- A valid text can be cut in front of an ASCII character, or at its end. -/
theorem isUtf8_of_cut {s t : Text} (h : (s ++ t).isUtf8 = true) (ht : ∀ b ∈ t.head?, b.toNat < 0x80) :
    s.isUtf8 = true ∧ t.isUtf8 = true := by
  cases t with
  | nil => exact ⟨List.append_nil s ▸ h, rfl⟩
  | cons b t =>
    have hb : b.toNat < 0x80 := ht b rfl
    rw [isUtf8_append_ascii s hb, Bool.and_eq_true] at h
    rw [isUtf8_cons_ascii hb]
    exact h

section

variable {p : UInt8 → Bool} {t : Text}

/-- A valid text can be cut where a condition first fails that every byte beyond ASCII meets. -/
theorem isUtf8_takeWhile_dropWhile (hp : ∀ b : UInt8, 0x80 ≤ b.toNat → p b = true) (h : t.isUtf8 = true) :
    isUtf8 (t.takeWhile p) = true ∧ isUtf8 (t.dropWhile p) = true := by
  refine isUtf8_of_cut (by rwa [List.takeWhile_append_dropWhile]) fun b hb => ?_
  refine not_le.1 fun hle => ?_
  have hnot := List.head?_dropWhile_not p t
  rw [Option.mem_def.1 hb] at hnot
  exact Bool.false_ne_true (hnot.symm.trans (hp b hle))

/-- A valid text stays so when some of its ASCII characters are left out. -/
theorem isUtf8_filter (hp : ∀ b : UInt8, 0x80 ≤ b.toNat → p b = true) (h : t.isUtf8 = true) :
    isUtf8 (t.filter p) = true := by
  induction t using rune_induction with
  | nil => rfl
  | spelled c b tail rest hspelled ih =>
    rw [isUtf8_spelled hspelled] at h
    cases tail with
    | nil =>
      rw [List.cons_append, List.nil_append, List.filter_cons]
      split
      · rw [isUtf8_cons_ascii (hspelled.lt_iff_tail_eq_nil.2 rfl)]
        exact ih h
      · exact ih h
    | cons d tail =>
      have hkept := hspelled.ge_of_tail_ne_nil (List.cons_ne_nil d tail)
      rw [List.filter_append, List.filter_eq_self.2 fun a ha => hp a (hkept a ha), isUtf8_spelled hspelled]
      exact ih h
  | stray b rest hstray =>
    rw [isUtf8, runes_stray hstray] at h
    cases h

end

end Text

/-! ## ASCII texts as runes -/

/-- The rune of an ASCII byte. -/
def Rune.ofAscii (b : UInt8) : Rune := ⟨Char.ofNat b.toNat, 1⟩

theorem Rune.code_ofAscii {b : UInt8} (h : b.toNat < 0x80) : (ofAscii b).char.toNat = b.toNat := by
  exact (Char.toNat_ofNat _).trans (if_pos (.inl (by omega)))

theorem Text.IsAscii.runes_eq {t : Text} (h : IsAscii t) : t.runes = t.map Rune.ofAscii := by
  induction t with
  | nil => rfl
  | cons b t ih =>
    obtain ⟨hb, ht⟩ := List.forall_mem_cons.1 h
    have hspelled := Rune.Spelled.one hb
    rw [UInt8.ofNat_toNat] at hspelled
    have hrunes := runes_spelled hspelled t
    rw [List.cons_append, List.nil_append] at hrunes
    rw [hrunes, ih ht, List.map_cons]
    rfl

theorem sum_width_ofAscii (t : Text) : ((t.map Rune.ofAscii).map (·.width)).sum = t.length := by
  rw [List.map_map]
  induction t with
  | nil => rfl
  | cons b t ih =>
    rw [List.map_cons, List.sum_cons, ih, List.length_cons, Nat.add_comm]
    rfl

/-- The character of an ASCII byte. -/
def charOf (b : UInt8) : Char := (Rune.ofAscii b).char

/-- What holds of the first 128 bytes holds of every ASCII byte. -/
theorem forall_ascii_byte {P : UInt8 → Prop} (hP : ∀ n < 128, P (UInt8.ofNat n)) {b : UInt8}
    (hb : b.toNat < 0x80) : P b := by
  have hn := hP b.toNat hb
  rwa [UInt8.ofNat_toNat] at hn

end LiteralAudit
