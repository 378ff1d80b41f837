import LiteralAudit.Proofs.Text.Utf8
import LiteralAudit.Unicode.Case

/-!
# Texts that are cut and trimmed

A text is what stands before the first occurrence of a byte, and the rest (`Text.exists_cut`), and that is
where it is cut (`Text.cutByte?_getD`). It is also what trimming leaves of it, between two texts of white
space (`Text.exists_blanks`). Of these it is enough to know the bytes: those of white space characters are
few, apart from the bytes beyond ASCII (`Text.IsBlank`).
-/

namespace LiteralAudit

namespace Text

/-! ## Bytes found -/

theorem findIdx?_eq_none {t : Text} {b : UInt8} (h : b ∉ t) : t.findIdx? (· == b) = none :=
  List.idxOf?_eq_none_iff.2 h

theorem cutByte?_of_not_mem {t : Text} {b : UInt8} (h : b ∉ t) : t.cutByte? b = none := by
  rw [cutByte?, indexOfByte?, findIdx?_eq_none h, Option.map_none]

theorem cutByte?_append {p q : Text} {b : UInt8} (h : b ∉ p) :
    (p ++ b :: q).cutByte? b = some (p, q) := by
  have hfind : (p ++ b :: q).findIdx? (· == b) = some p.length := by
    rw [List.findIdx?_append, findIdx?_eq_none h]
    simp [List.findIdx?_cons]
  rw [cutByte?, indexOfByte?, hfind, Option.map_some, List.take_left, List.drop_append]
  simp

/-- A text is what stands before the first occurrence of a byte, and the rest with the byte. -/
theorem exists_cut (t : Text) (b : UInt8) :
    ∃ front back, t = front ++ back ∧ b ∉ front ∧ ∀ c ∈ back.head?, c = b := by
  by_cases h : b ∈ t
  · obtain ⟨front, back, ht, hfront⟩ := List.eq_append_cons_of_mem h
    exact ⟨front, b :: back, ht, hfront, fun c hc => (Option.some.inj hc).symm⟩
  · exact ⟨t, [], (List.append_nil t).symm, h, fun c hc => by cases hc⟩

theorem cutByte?_getD {front back : Text} {b : UInt8} (hfront : b ∉ front)
    (hback : ∀ c ∈ back.head?, c = b) :
    ((front ++ back).cutByte? b).getD (front ++ back, []) = (front, back.drop 1) := by
  cases back with
  | nil =>
    rw [List.append_nil, cutByte?_of_not_mem hfront]
    rfl
  | cons c back =>
    obtain rfl : c = b := hback c rfl
    rw [cutByte?_append hfront]
    rfl

theorem lastIndexOfByte?_append_of_not_mem {b : UInt8} (p : Text) {q : Text} (h : b ∉ q) :
    (p ++ q).lastIndexOfByte? b = p.lastIndexOfByte? b := by
  rw [lastIndexOfByte?, lastIndexOfByte?, List.reverse_append, List.findIdx?_append,
    findIdx?_eq_none (mt List.mem_reverse.1 h), Option.none_or, Option.map_map]
  congr 1
  funext k
  simp only [Function.comp, List.length_append, List.length_reverse]
  omega

theorem lastIndexOfByte?_isSome {t : Text} {b : UInt8} : (t.lastIndexOfByte? b).isSome = t.contains b := by
  rw [lastIndexOfByte?, Option.isSome_map, List.findIdx?_isSome, List.any_reverse, Bool.eq_iff_iff,
    List.any_eq_true, List.contains_iff_mem]
  simp

theorem succ_lastIndexOfByte?_le {t : Text} {b : UInt8} {i : Nat} (h : t.lastIndexOfByte? b = some i) :
    i + 1 ≤ t.length := by
  have hlength : 0 < t.length := by
    rw [List.length_pos_iff]
    rintro rfl
    cases h
  obtain ⟨k, -, rfl⟩ := Option.map_eq_some_iff.1 h
  omega

/-! ## White space -/

/-- Whether a byte can be one of a white space character. Beyond ASCII, every byte is taken for one. -/
def isBlankByte (b : UInt8) : Bool := (9 ≤ b && b ≤ 13) || b == 32 || 0x80 ≤ b

/-- What is made of bytes of white space characters. -/
def IsBlank (t : Text) : Prop := ∀ b ∈ t, isBlankByte b = true

theorem isBlank_spelled {c : Char} {b : UInt8} {tail : Text} (h : Rune.Spelled c (b :: tail))
    (hc : Unicode.isSpace c = true) : IsBlank (b :: tail) := by
  by_cases htail : tail = []
  · subst htail
    cases h with
    | @one n hn =>
      have hascii : ∀ n < 128, Unicode.isSpace (Char.ofNat n) = true →
          isBlankByte (UInt8.ofNat n) = true := by decide
      exact List.forall_mem_singleton.2 (hascii n hn hc)
  · intro d hd
    have hge := h.ge_of_tail_ne_nil htail d hd
    simp only [isBlankByte, Bool.or_eq_true, decide_eq_true_eq, UInt8.le_iff_toNat_le]
    exact .inr hge

theorem trimSpaceStart_spelled {c : Char} {b : UInt8} {tail : Text} (h : Rune.Spelled c (b :: tail))
    (rest : Text) : trimSpaceStart (b :: tail ++ rest) =
      if Unicode.isSpace c then trimSpaceStart rest else b :: tail ++ rest := by
  have hskip : ∀ tail : Text, trimSpaceStartFrom tail.length (tail ++ rest) = trimSpaceStart rest := by
    intro tail
    induction tail with
    | nil => rfl
    | cons d tail ih => exact ih
  rw [trimSpaceStart, List.cons_append, trimSpaceStartFrom, Rune.first_of_spelled h rest]
  simp only [Nat.add_sub_cancel, hskip]

theorem trimSpaceStart_stray {b : UInt8} {rest : Text} (h : (Rune.first b rest).isStray = true) :
    trimSpaceStart (b :: rest) = b :: rest := by
  rw [trimSpaceStart, trimSpaceStartFrom, eq_stray_of_isStray h]
  rfl

theorem exists_append_trimSpaceStart (t : Text) : ∃ front, t = front ++ t.trimSpaceStart ∧ IsBlank front := by
  induction t using rune_induction with
  | nil => exact ⟨[], rfl, List.forall_mem_nil _⟩
  | spelled c b tail rest h ih =>
    rw [trimSpaceStart_spelled h]
    split
    · next hc =>
      obtain ⟨front, hfront, hblank⟩ := ih
      refine ⟨b :: tail ++ front, ?_, List.forall_mem_append.2 ⟨isBlank_spelled h hc, hblank⟩⟩
      rw [List.append_assoc, ← hfront]
    · exact ⟨[], rfl, List.forall_mem_nil _⟩
  | stray b rest h =>
    rw [trimSpaceStart_stray h]
    exact ⟨[], rfl, List.forall_mem_nil _⟩

/-- The runes of a text take up its bytes. -/
theorem sum_width_runes (t : Text) : (t.runes.map (·.width)).sum = t.length := by
  induction t using rune_induction with
  | nil => rfl
  | spelled c b tail rest h ih =>
    rw [runes_spelled h, List.map_cons, List.sum_cons, ih, List.length_append, List.length_cons]
  | stray b rest h ih =>
    rw [runes_stray h, List.map_cons, List.sum_cons, ih, List.length_cons, Nat.add_comm]
    rfl

theorem isBlank_of_runes {t : Text} (h : ∀ r ∈ t.runes, Unicode.isSpace r.char = true) : IsBlank t := by
  induction t using rune_induction with
  | nil => exact List.forall_mem_nil _
  | spelled c b tail rest hspelled ih =>
    rw [runes_spelled hspelled, List.forall_mem_cons] at h
    exact List.forall_mem_append.2 ⟨isBlank_spelled hspelled h.1, ih h.2⟩
  | stray b rest hstray =>
    rw [runes_stray hstray, List.forall_mem_cons] at h
    exact absurd h.1 (by decide)

/-- The last runes of a text are the runes of its last bytes. -/
theorem exists_bytes_of_suffix {t : Text} {rs : List Rune} (h : rs <:+ t.runes) :
    ∃ front back, t = front ++ back ∧ back.runes = rs := by
  induction t using rune_induction with
  | nil => exact ⟨[], [], rfl, (List.suffix_nil.1 h).symm⟩
  | spelled c b tail rest hspelled ih =>
    rw [runes_spelled hspelled, List.suffix_cons_iff, ← runes_spelled hspelled] at h
    rcases h with rfl | h
    · exact ⟨[], _, rfl, rfl⟩
    · obtain ⟨front, back, rfl, hback⟩ := ih h
      exact ⟨b :: tail ++ front, back, (List.append_assoc ..).symm, hback⟩
  | stray b rest hstray ih =>
    rw [runes_stray hstray, List.suffix_cons_iff, ← runes_stray hstray] at h
    rcases h with rfl | h
    · exact ⟨[], _, rfl, rfl⟩
    · obtain ⟨front, back, rfl, hback⟩ := ih h
      exact ⟨b :: front, back, rfl, hback⟩

theorem exists_trimSpaceEnd_append (t : Text) : ∃ back, t = t.trimSpaceEnd ++ back ∧ IsBlank back := by
  set space : Rune → Bool := fun r => Unicode.isSpace r.char
  obtain ⟨front, back, ht, hback⟩ := exists_bytes_of_suffix (List.rtakeWhile_suffix space t.runes)
  have hlength : (t.runes.reverse.takeWhile space).foldl (fun n r => n + r.width) 0 = back.length := by
    rw [← sum_width_runes back, hback, List.rtakeWhile, List.map_reverse, List.sum_reverse,
      List.sum_eq_foldl, List.foldl_map]
  have hfront : t.trimSpaceEnd = front := by
    show t.take (t.length - (t.runes.reverse.takeWhile space).foldl (fun n r => n + r.width) 0) = front
    rw [hlength, ht, List.length_append, Nat.add_sub_cancel, List.take_left]
  refine ⟨back, by rw [hfront, ← ht], isBlank_of_runes ?_⟩
  rw [hback]
  exact fun r hr => List.mem_rtakeWhile_imp (p := space) hr

/-- A text is what trimming leaves of it between two blank ones, and what stands in front is what trimming
the start takes away. -/
theorem exists_blanks (t : Text) : ∃ front back, t = front ++ (t.trimSpace ++ back) ∧
    IsBlank front ∧ IsBlank back ∧ (front = [] ↔ t.trimSpaceStart = t) := by
  obtain ⟨front, hfront, hblankFront⟩ := exists_append_trimSpaceStart t
  obtain ⟨back, hback, hblankBack⟩ := exists_trimSpaceEnd_append t.trimSpaceStart
  refine ⟨front, back, hfront.trans (congrArg _ hback), hblankFront, hblankBack, ?_⟩
  constructor
  · rintro rfl
    exact hfront.symm
  · intro h
    rw [h] at hfront
    exact List.self_eq_append_left.1 hfront

theorem IsBlank.not_mem {t : Text} (h : IsBlank t) {b : UInt8} (hb : isBlankByte b = false) : b ∉ t := by
  intro hmem
  rw [h b hmem] at hb
  cases hb

end Text

end LiteralAudit
