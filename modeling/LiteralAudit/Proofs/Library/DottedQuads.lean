import LiteralAudit.Proofs.Library.Grouping
import LiteralAudit.Proofs.Number.Digits
import LiteralAudit.Proofs.Regex.Framed

/-!
# Addresses

The address rule of the built-in library looks for four octets with dots between them, as a word of its
own (`read_addressValue`). The words of its body are the dotted quads of numbers up to 255
(`spells_quad`). A text that is a dotted quad itself has only three dots, so that a part of it which is one
too begins with its first number and ends with its last; and since the part has a word boundary at both
ends, it is the whole text (`dotted_whole`). No other rule can be spelled with digits and dots.
-/

namespace LiteralAudit

open Regex

/-! ## Decimal forms -/

theorem Text.ofNat_push {n d : Nat} (hn : 0 < n) (hd : d < 10) :
    ofNat (n * 10 + d) = ofNat n ++ ofNat d := by
  rw [ofNat_of_ge (by omega), show (n * 10 + d) / 10 = n by omega, show (n * 10 + d) % 10 = d by omega]

theorem Text.ofNat_injective {m n : Nat} (h : ofNat m = ofNat n) : m = n := by
  have hm := Number.readDigits?_ofNat 0 m
  have hn := Number.readDigits?_ofNat 0 n
  rw [h, hn] at hm
  exact (Option.some.inj hm).symm

/-- A dot as a byte. -/
def dot : UInt8 := '.'

/-- The bytes of decimal forms joined by dots. -/
def IsQuadByte (b : UInt8) : Prop := Text.isDigit b = true ∨ b = dot

/-- Four numbers in decimal, joined by dots. -/
def dotted (a b c d : Nat) : Text :=
  Text.join "." [Text.ofNat a, Text.ofNat b, Text.ofNat c, Text.ofNat d]

variable {a b c d : Nat}

theorem dotted_eq (a b c d : Nat) :
    dotted a b c d =
      Text.ofNat a ++ dot :: (Text.ofNat b ++ dot :: (Text.ofNat c ++ dot :: Text.ofNat d)) := by
  show Text.ofNat a ++ (46 :: Text.ofNat b ++ (46 :: Text.ofNat c ++ (46 :: Text.ofNat d ++ []))) = _
  simp only [List.append_nil, List.cons_append]
  rfl

theorem dot_notMem_ofNat (n : Nat) : dot ∉ Text.ofNat n := fun h =>
  absurd (Text.isDigit_of_mem_ofNat h) (by decide)

theorem isQuadByte_of_mem {x : UInt8} (h : x ∈ dotted a b c d) : IsQuadByte x := by
  rw [dotted_eq] at h
  simp only [List.mem_append, List.mem_cons] at h
  have hdigit : ∀ n, x ∈ Text.ofNat n → IsQuadByte x := fun n hn => .inl (Text.isDigit_of_mem_ofNat hn)
  obtain h | h | h | h | h | h | h := h
  · exact hdigit a h
  · exact .inr h
  · exact hdigit b h
  · exact .inr h
  · exact hdigit c h
  · exact .inr h
  · exact hdigit d h

theorem count_dot_dotted (a b c d : Nat) : (dotted a b c d).count dot = 3 := by
  simp [dotted_eq, List.count_append, List.count_eq_zero_of_not_mem (dot_notMem_ofNat _)]

/-- What stands before the first dot, and what behind it. -/
theorem eq_of_append_dot {u v r s : Text} (hu : dot ∉ u) (hv : dot ∉ v)
    (h : u ++ dot :: r = v ++ dot :: s) : u = v ∧ r = s := by
  have hfront : ∀ w r : Text, dot ∉ w → (w ++ dot :: r).takeWhile (· != dot) = w := by
    intro w r hw
    have hpos : ∀ x ∈ w, (x != dot) = true := by
      intro x hx
      rw [bne_iff_ne]
      rintro rfl
      exact hw hx
    rw [List.takeWhile_append_of_pos hpos]
    simp
  have huv : u = v := by rw [← hfront u r hu, h, hfront v s hv]
  subst huv
  exact ⟨rfl, (List.cons.inj (List.append_cancel_left h)).2⟩

theorem dotted_injective {a' b' c' d' : Nat} (h : dotted a b c d = dotted a' b' c' d') :
    a = a' ∧ b = b' ∧ c = c' ∧ d = d' := by
  rw [dotted_eq, dotted_eq] at h
  obtain ⟨ha, h⟩ := eq_of_append_dot (dot_notMem_ofNat a) (dot_notMem_ofNat a') h
  obtain ⟨hb, h⟩ := eq_of_append_dot (dot_notMem_ofNat b) (dot_notMem_ofNat b') h
  obtain ⟨hc, hd⟩ := eq_of_append_dot (dot_notMem_ofNat c) (dot_notMem_ofNat c') h
  exact ⟨Text.ofNat_injective ha, Text.ofNat_injective hb, Text.ofNat_injective hc,
    Text.ofNat_injective hd⟩

theorem head?_dotted (a b c d : Nat) : ∃ x, (dotted a b c d).head? = some x ∧ Text.isDigit x = true := by
  obtain ⟨x, w, hw⟩ := List.exists_cons_of_length_pos (Text.length_ofNat_pos a)
  refine ⟨x, by rw [dotted_eq, hw]; rfl, ?_⟩
  exact Text.isDigit_of_mem_ofNat (hw ▸ List.mem_cons_self)

theorem getLast?_dotted (a b c d : Nat) :
    ∃ x, (dotted a b c d).getLast? = some x ∧ Text.isDigit x = true := by
  have hne : Text.ofNat d ≠ [] := List.ne_nil_of_length_pos (Text.length_ofNat_pos d)
  refine ⟨(Text.ofNat d).getLast hne, ?_, Text.isDigit_of_mem_ofNat (List.getLast_mem hne)⟩
  rw [dotted_eq, ← List.getLast?_eq_some_getLast hne]
  cases hd : Text.ofNat d with
  | nil => exact absurd hd hne
  | cons x w => simp [List.getLast?_append, List.getLast?_cons]

/-! ## The words of the address rule -/

namespace Regex

/-- A decimal digit. -/
def digit : Regex := .chars [(48, 57)]

/-- The decimal forms of the numbers up to 255. -/
def octet : Regex :=
  altAll
    [seqAll [char '2', char '5', .chars [(48, 53)]],
     seqAll [char '2', .chars [(48, 52)], digit],
     seqAll [char '1', digit, digit],
     seqAll [.rep 0 (some 1) true (.chars [(49, 57)]), digit]]

/-- Four octets with dots between them. -/
def quad : Regex := .seq octet (.rep 3 (some 3) true (.seq (char '.') octet))

theorem plain_quad : quad.plain = true := by decide

/-- A range of digits spells the digits in it. -/
theorem spells_digits (lo hi : Nat) (hhi : hi < 10) {w : Text} :
    (chars [(48 + lo, 48 + hi)]).Spells w ↔ ∃ d, lo ≤ d ∧ d ≤ hi ∧ w = Text.ofNat d := by
  constructor
  · rintro ⟨x, rfl, hmem⟩
    have hrange : 48 + lo ≤ x.toNat ∧ x.toNat ≤ 48 + hi := by simpa [CharSet.mem] using hmem
    refine ⟨x.toNat - 48, by omega, by omega, ?_⟩
    rw [Text.ofNat_of_lt (by omega), show 48 + (x.toNat - 48) = x.toNat by omega, UInt8.ofNat_toNat]
  · rintro ⟨d, hlo, hd, rfl⟩
    refine ⟨UInt8.ofNat (48 + d), Text.ofNat_of_lt (by omega), ?_⟩
    rw [UInt8.toNat_ofNat', Nat.mod_eq_of_lt (by omega)]
    simpa [CharSet.mem] using And.intro hlo hd

theorem spells_one_digit (d : Nat) (hd : d < 10) {w : Text} :
    (chars [(48 + d, 48 + d)]).Spells w ↔ w = Text.ofNat d := by
  rw [spells_digits d d hd]
  constructor
  · rintro ⟨e, hle, hge, rfl⟩
    rw [Nat.le_antisymm hge hle]
  · rintro rfl
    exact ⟨d, le_rfl, le_rfl, rfl⟩

theorem spells_digit {w : Text} : digit.Spells w ↔ ∃ d, d ≤ 9 ∧ w = Text.ofNat d :=
  (spells_digits 0 9 (by decide)).trans (by simp)

/-- A word of an octet is the decimal form of a number up to 255. -/
theorem spells_octet {w : Text} : octet.Spells w ↔ ∃ n, n ≤ 255 ∧ w = Text.ofNat n := by
  have hone : ∀ w, (char '1').Spells w ↔ w = Text.ofNat 1 := fun w => spells_one_digit 1 (by decide)
  have htwo : ∀ w, (char '2').Spells w ↔ w = Text.ofNat 2 := fun w => spells_one_digit 2 (by decide)
  have hfive : ∀ w, (char '5').Spells w ↔ w = Text.ofNat 5 := fun w => spells_one_digit 5 (by decide)
  constructor
  · rintro (⟨u, -, rfl, hu, v, w, rfl, hv, hw⟩ | ⟨u, -, rfl, hu, v, w, rfl, hv, hw⟩ |
      ⟨u, -, rfl, hu, v, w, rfl, hv, hw⟩ | ⟨u, v, rfl, hu, hv⟩)
    · obtain ⟨z, -, hz, rfl⟩ := (spells_digits 0 5 (by decide)).1 hw
      obtain rfl := (htwo u).1 hu
      obtain rfl := (hfive v).1 hv
      refine ⟨(2 * 10 + 5) * 10 + z, by omega, ?_⟩
      rw [Text.ofNat_push (by decide) (by omega), Text.ofNat_push (by decide) (by decide),
        List.append_assoc]
    · obtain ⟨y, -, hy, rfl⟩ := (spells_digits 0 4 (by decide)).1 hv
      obtain ⟨z, hz, rfl⟩ := spells_digit.1 hw
      obtain rfl := (htwo u).1 hu
      refine ⟨(2 * 10 + y) * 10 + z, by omega, ?_⟩
      rw [Text.ofNat_push (by omega) (by omega), Text.ofNat_push (by decide) (by omega),
        List.append_assoc]
    · obtain ⟨y, hy, rfl⟩ := spells_digit.1 hv
      obtain ⟨z, hz, rfl⟩ := spells_digit.1 hw
      obtain rfl := (hone u).1 hu
      refine ⟨(1 * 10 + y) * 10 + z, by omega, ?_⟩
      rw [Text.ofNat_push (by omega) (by omega), Text.ofNat_push (by decide) (by omega),
        List.append_assoc]
    · obtain ⟨z, hz, rfl⟩ := spells_digit.1 hv
      obtain ⟨ws, rfl, -, hmost, hws⟩ := hu
      match ws, hmost 1 rfl with
      | [], _ => exact ⟨z, by omega, rfl⟩
      | [y], _ =>
        obtain ⟨n, hn, hn', rfl⟩ :=
          (spells_digits 1 9 (by decide)).1 (hws y List.mem_cons_self)
        refine ⟨n * 10 + z, by omega, ?_⟩
        rw [Text.ofNat_push (by omega) (by omega)]
        simp
  · rintro ⟨n, hn, rfl⟩
    have hdigit : ∀ m, digit.Spells (Text.ofNat (m % 10)) := fun m => spells_digit.2 ⟨_, by omega, rfl⟩
    have hsplit : ∀ m, 10 ≤ m → Text.ofNat m = Text.ofNat (m / 10) ++ Text.ofNat (m % 10) :=
      fun m hm => Text.ofNat_of_ge hm
    -- Three digits are told apart by the first two.
    have hthree : 100 ≤ n →
        Text.ofNat n = Text.ofNat (n / 100) ++ (Text.ofNat (n / 10 % 10) ++ Text.ofNat (n % 10)) := by
      intro hn
      rw [hsplit n (by omega), hsplit (n / 10) (by omega), Nat.div_div_eq_div_mul, List.append_assoc]
    by_cases h10 : n < 10
    · refine .inr (.inr (.inr ⟨[], Text.ofNat n, rfl, ⟨[], rfl, le_rfl, by simp, by simp⟩, ?_⟩))
      exact spells_digit.2 ⟨n, by omega, rfl⟩
    by_cases h100 : n < 100
    · refine .inr (.inr (.inr ⟨_, _, hsplit n (by omega), ⟨[Text.ofNat (n / 10)], ?_⟩, hdigit n⟩))
      refine ⟨by simp, by simp, by simp, List.forall_mem_singleton.2 ?_⟩
      exact (spells_digits 1 9 (by decide)).2 ⟨n / 10, by omega, by omega, rfl⟩
    have hform := hthree (by omega)
    by_cases h200 : n < 200
    · refine .inr (.inr (.inl ⟨_, _, hform, (hone _).2 ?_, _, _, rfl, hdigit (n / 10), hdigit n⟩))
      rw [show n / 100 = 1 by omega]
    by_cases h250 : n < 250
    · refine .inr (.inl ⟨_, _, hform, (htwo _).2 ?_, _, _, rfl, ?_, hdigit n⟩)
      · rw [show n / 100 = 2 by omega]
      · exact (spells_digits 0 4 (by decide)).2 ⟨_, by omega, by omega, rfl⟩
    · refine .inl ⟨_, _, hform, (htwo _).2 ?_, _, _, rfl, (hfive _).2 ?_, ?_⟩
      · rw [show n / 100 = 2 by omega]
      · rw [show n / 10 % 10 = 5 by omega]
      · exact (spells_digits 0 5 (by decide)).2 ⟨_, by omega, by omega, rfl⟩

theorem spells_dot {w : Text} : (char '.').Spells w ↔ w = [dot] := by
  constructor
  · rintro ⟨x, rfl, hmem⟩
    have hx : 46 ≤ x.toNat ∧ x.toNat ≤ 46 := by simpa [char, CharSet.mem] using hmem
    rw [← @UInt8.ofNat_toNat x, show x.toNat = 46 by omega]
    rfl
  · rintro rfl
    exact ⟨_, rfl, rfl⟩

/-- The words of the address rule are the dotted quads of octets. -/
theorem spells_quad {w : Text} :
    quad.Spells w ↔
      ∃ a b c d, (a ≤ 255 ∧ b ≤ 255 ∧ c ≤ 255 ∧ d ≤ 255) ∧ w = dotted a b c d := by
  have hpart : ∀ v, (Regex.seq (char '.') octet).Spells v ↔ ∃ n, n ≤ 255 ∧ v = dot :: Text.ofNat n := by
    intro v
    constructor
    · rintro ⟨v, u, rfl, hv, hu⟩
      obtain rfl := spells_dot.1 hv
      obtain ⟨n, hn, rfl⟩ := spells_octet.1 hu
      exact ⟨n, hn, rfl⟩
    · rintro ⟨n, hn, rfl⟩
      exact ⟨[dot], Text.ofNat n, rfl, spells_dot.2 rfl, spells_octet.2 ⟨n, hn, rfl⟩⟩
  constructor
  · rintro ⟨u, -, rfl, hu, ws, rfl, hleast, hmost, hws⟩
    obtain ⟨a, ha, rfl⟩ := spells_octet.1 hu
    have hlength : ws.length = 3 := Nat.le_antisymm (hmost 3 rfl) hleast
    obtain ⟨x, y, z, rfl⟩ := List.length_eq_three.1 hlength
    simp only [List.forall_mem_cons, hpart] at hws
    obtain ⟨⟨b, hb, rfl⟩, ⟨c, hc, rfl⟩, ⟨d, hd, rfl⟩, -⟩ := hws
    refine ⟨a, b, c, d, ⟨ha, hb, hc, hd⟩, ?_⟩
    rw [dotted_eq]
    simp
  · rintro ⟨a, b, c, d, ⟨ha, hb, hc, hd⟩, rfl⟩
    refine ⟨Text.ofNat a, _, dotted_eq a b c d, spells_octet.2 ⟨a, ha, rfl⟩,
      [dot :: Text.ofNat b, dot :: Text.ofNat c, dot :: Text.ofNat d], by simp, le_rfl, by simp, ?_⟩
    simp only [List.forall_mem_cons, hpart]
    exact ⟨⟨b, hb, rfl⟩, ⟨c, hc, rfl⟩, ⟨d, hd, rfl⟩, List.forall_mem_nil _⟩

end Regex

/-! ## Parts of dotted quads -/

theorem isWordChar_of_isDigit {x : UInt8} (h : Text.isDigit x = true) :
    Place.isWordChar (charOf x) = true := by
  obtain ⟨hlo, hhi⟩ := Text.toNat_of_isDigit h
  unfold charOf Rune.ofAscii
  interval_cases x.toNat <;> rfl

/-- The part of a dotted quad that the address rule finds is all of it. -/
theorem dotted_whole {v w z : Text} (h : dotted a b c d = v ++ w ++ z)
    (hframed : Framed .wordBoundary quad .wordBoundary v w z) : v = [] ∧ z = [] := by
  obtain ⟨hspells, hfront, hback⟩ := hframed
  obtain ⟨a', b', c', d', -, rfl⟩ := spells_quad.1 hspells
  have hbytes : ∀ x ∈ v ++ dotted a' b' c' d' ++ z, IsQuadByte x := fun x hx =>
    isQuadByte_of_mem (h ▸ hx)
  have hcount := congrArg (List.count dot) h
  rw [count_dot_dotted, List.count_append, List.count_append, count_dot_dotted] at hcount
  have hdigit : ∀ x ∈ v ++ z, Text.isDigit x = true := by
    intro x hx
    have hnone : dot ∉ v ++ z := by
      rw [← List.count_eq_zero, List.count_append]
      omega
    have hmem : x ∈ v ++ dotted a' b' c' d' ++ z := by
      simp only [List.mem_append] at hx ⊢
      tauto
    obtain hdigit | rfl := hbytes x hmem
    · exact hdigit
    · exact absurd hx hnone
  constructor
  · obtain ⟨x, hx, hxdigit⟩ := head?_dotted a' b' c' d'
    refine List.getLast?_eq_none_iff.1 (Option.eq_none_iff_forall_ne_some.2 fun y hy => ?_)
    rw [List.head?_append, hx, hy] at hfront
    have hyword := isWordChar_of_isDigit (hdigit y (List.mem_append_left _ (List.mem_of_getLast? hy)))
    simp [Place.holds, isWordChar_of_isDigit hxdigit, hyword] at hfront
  · obtain ⟨x, hx, hxdigit⟩ := getLast?_dotted a' b' c' d'
    refine List.head?_eq_none_iff.1 (Option.eq_none_iff_forall_ne_some.2 fun y hy => ?_)
    rw [List.getLast?_append, hx, hy] at hback
    have hyword := isWordChar_of_isDigit (hdigit y (List.mem_append_right _ (List.mem_of_head? hy)))
    simp [Place.holds, isWordChar_of_isDigit hxdigit, hyword] at hback

/-- The codes of digits and dots, digits first. -/
def quadCodes : List Nat := [48, 49, 50, 51, 52, 53, 54, 55, 56, 57, 46]

theorem mem_quadCodes {x : UInt8} (h : x ∈ dotted a b c d) : x.toNat ∈ quadCodes := by
  obtain h | rfl := isQuadByte_of_mem h
  · obtain ⟨hlo, hhi⟩ := Text.toNat_of_isDigit h
    interval_cases x.toNat <;> decide
  · decide

theorem isAscii_dotted (a b c d : Nat) : (dotted a b c d).IsAscii := by
  intro x hx
  have hcodes : ∀ n ∈ quadCodes, n < 0x80 := by decide
  exact hcodes _ (mem_quadCodes hx)

namespace Library

/-- The rules before the address rule. -/
def beforeAddress : List RuleSource := builtinRules.take 11

/-- The address rule. -/
def address : RuleSource := builtinRules[11]

/-- The rules behind the address rule. -/
def afterAddress : List RuleSource := builtinRules.drop 12

theorem builtinRules_eq : builtinRules = beforeAddress ++ address :: afterAddress := rfl

deriving instance DecidableEq for Regex

theorem read_address :
    Regex.read address.value = .ok (framed .wordBoundary quad .wordBoundary) :=
  eq_ok_of_toOption (by decide)

/-- Whether the value pattern of a rule might be spelled with some characters only. -/
def spelledWith (codes : List Nat) (s : RuleSource) : Bool :=
  !s.value.isEmpty && (Regex.read s.value).toOption.any (·.readable codes)

theorem beforeAddress_not_spelledWith : ∀ s ∈ beforeAddress, spelledWith quadCodes s = false := by
  decide +kernel

theorem afterAddress_not_spelledWith : ∀ s ∈ afterAddress, spelledWith quadCodes s = false := by
  decide +kernel

/-- No other rule can be spelled with digits and dots. -/
theorem not_spelledWith_quadCodes :
    ∀ s ∈ beforeAddress ++ afterAddress, spelledWith quadCodes s = false :=
  List.forall_mem_append.2 ⟨beforeAddress_not_spelledWith, afterAddress_not_spelledWith⟩

/-- What the value pattern of a rule reports of a text. -/
def ofValue (rule : Rule) (t : Text) : List Text := (rule.value?.map (Rule.collect · t)).getD []

/-- On a string that is bound to no name a rule fires by its value pattern only. -/
theorem find_unbound (rule : Rule) (t : Text) :
    rule.find { value := t } =
      if rule.portRange then (ofValue rule t).filter Rule.isPort else ofValue rule t := by
  have hbound : (rule.binding?.any fun p =>
      !(([] : Text).isEmpty) && !t.trimSpace.isEmpty && p.matchesIn []) = false := by
    cases rule.binding? <;> rfl
  unfold Rule.find Rule.matchString ofValue
  dsimp only
  rw [hbound]
  cases rule.value? <;> rfl

/-- A rule that cannot be spelled with the characters of an unbound string reports nothing of it. -/
theorem find_eq_nil_of_not_spelledWith {source : RuleSource} {rule : Rule}
    (h : source.compile.toOption = some rule) {t : Text} (ht : t.IsAscii) {codes : List Nat}
    (hcodes : ∀ b ∈ t, b.toNat ∈ codes) (hsource : spelledWith codes source = false) :
    rule.find { value := t } = [] := by
  have hnone : ofValue rule t = [] := by
    unfold ofValue
    cases hvalue : rule.value? with
    | none => rfl
    | some p =>
      have hpattern := (RuleSource.patterns_of_compile h).1
      rw [hvalue] at hpattern
      obtain ⟨hne, -, r, hread, hauto⟩ := RuleSource.of_pattern? hpattern
      refine Rule.collect_of_unreadable hauto ht hcodes ?_
      have hnonempty : source.value.isEmpty = false := by simpa using hne
      rw [spelledWith, hread, hnonempty] at hsource
      exact hsource
  rw [find_unbound, hnone]
  split <;> rfl

/-- The rules that are written so. -/
def compiled (sources : List RuleSource) : List Rule := sources.filterMap fun s => s.compile.toOption

/-- Where one rule of the library may fire and no other, the findings are those of its category. -/
theorem classify_builtin_of_one {before after : List RuleSource} {source : RuleSource} {rule : Rule}
    {c : Candidate} (hrules : builtinRules = before ++ source :: after)
    (hcompile : source.compile.toOption = some rule)
    (hothers : ∀ s ∈ before ++ after, ∀ r, s.compile.toOption = some r → r.find c = []) :
    builtin.classify c =
      if rule.find c = [] then []
      else (builtin.categories.filter (·.name == rule.category)).map
        fun k => ⟨k, rule, (rule.find c).eraseDups⟩ := by
  have hcompiled : builtin.rules = compiled before ++ rule :: compiled after := by
    show compiled builtinRules = _
    unfold compiled
    rw [hrules, List.filterMap_append, List.filterMap_cons, hcompile]
  have hnone : ∀ sources : List RuleSource, (∀ s ∈ sources, s ∈ before ++ after) →
      ∀ r ∈ compiled sources, r.find c = [] := by
    intro sources hsources r hr
    obtain ⟨s, hs, hr⟩ := List.mem_filterMap.1 hr
    exact hothers s (hsources s hs) r hr
  have hbefore := hnone before fun s hs => List.mem_append_left after hs
  have hafter := hnone after fun s hs => List.mem_append_right before hs
  split
  · next hfound =>
    refine classify_eq_nil ?_
    rw [hcompiled]
    exact List.forall_mem_append.2 ⟨hbefore, List.forall_mem_cons.2 ⟨hfound, hafter⟩⟩
  · next hfound => exact classify_of_one hcompiled hbefore hafter hfound

/-- The address rule compiles, to a search for a dotted quad of octets. -/
theorem compile_address : ∃ rule p, address.compile.toOption = some rule ∧
    rule.category = ipAddress ∧ rule.portRange = false ∧ rule.value? = some p ∧
      p.automaton = (framed .wordBoundary quad .wordBoundary).automaton := by
  have hvalue : address.pattern? "value" address.value =
      .ok (some ⟨address.value, (framed .wordBoundary quad .wordBoundary).automaton⟩) := by
    have hnonempty : address.value.isEmpty = false := by decide
    unfold RuleSource.pattern? Pattern.compile
    rw [hnonempty, read_address]
    rfl
  refine ⟨{ address with value? := some ⟨address.value, _⟩, numeric? := none, binding? := none },
    ⟨address.value, _⟩, ?_, rfl, rfl, rfl, rfl⟩
  unfold RuleSource.compile
  rw [hvalue]
  rfl

/-- What the address rule reports of a dotted quad. -/
theorem collect_dotted {p : Pattern}
    (hauto : p.automaton = (framed .wordBoundary quad .wordBoundary).automaton) (a b c d : Nat) :
    Rule.collect p (dotted a b c d) =
      if a ≤ 255 ∧ b ≤ 255 ∧ c ≤ 255 ∧ d ≤ 255 then [dotted a b c d] else [] := by
  have hascii := isAscii_dotted a b c d
  split
  · next h =>
    have hspells : quad.Spells (dotted a b c d) := spells_quad.2 ⟨a, b, c, d, h, rfl⟩
    have hempty : ¬ quad.Spells [] := by
      intro hnil
      obtain ⟨a, b, c, d, -, hdotted⟩ := spells_quad.1 hnil
      have hcount := count_dot_dotted a b c d
      rw [← hdotted] at hcount
      cases hcount
    refine Rule.collect_eq_whole hauto plain_quad hascii hempty ⟨hspells, ?_, ?_⟩
      fun v w z => dotted_whole
    · obtain ⟨x, hx, hdigit⟩ := head?_dotted a b c d
      simp [Place.holds, hx, isWordChar_of_isDigit hdigit]
    · obtain ⟨x, hx, hdigit⟩ := getLast?_dotted a b c d
      simp [Place.holds, hx, isWordChar_of_isDigit hdigit]
  · next h =>
    refine Rule.collect_eq_nil hauto hascii fun v w z heq hframed => h ?_
    obtain ⟨rfl, rfl⟩ := dotted_whole heq hframed
    obtain ⟨a', b', c', d', hle, hw⟩ := spells_quad.1 hframed.spells
    rw [List.nil_append, List.append_nil, hw] at heq
    obtain ⟨rfl, rfl, rfl, rfl⟩ := dotted_injective heq
    exact hle

/-- An unbound string of four numbers in decimal with dots between them is classified as an address,
which is all of it, when none of the numbers is above 255. Otherwise nothing is found in it, whatever the
length of the numbers. -/
theorem dotted_quads_classified (a b c d : Nat) :
    if a ≤ 255 ∧ b ≤ 255 ∧ c ≤ 255 ∧ d ≤ 255 then
      ∃ f, builtin.classify { value := dotted a b c d } = [f] ∧ f.category.name = ipAddress ∧
        f.values = [dotted a b c d]
    else builtin.classify { value := dotted a b c d } = [] := by
  obtain ⟨rule, p, hcompile, hcategory, hports, hvalue, hauto⟩ := compile_address
  have hfound : rule.find { value := dotted a b c d } =
      if a ≤ 255 ∧ b ≤ 255 ∧ c ≤ 255 ∧ d ≤ 255 then [dotted a b c d] else [] := by
    rw [find_unbound, hports, ← collect_dotted hauto, ofValue, hvalue]
    rfl
  have hclassify := classify_builtin_of_one builtinRules_eq hcompile fun s hs r hr =>
    find_eq_nil_of_not_spelledWith hr (isAscii_dotted a b c d) (fun x hx => mem_quadCodes hx)
      (not_spelledWith_quadCodes s hs)
  rw [hfound, hcategory] at hclassify
  split
  · next h =>
    rw [if_pos h, if_neg (List.cons_ne_nil _ _)] at hclassify
    rw [hclassify]
    exact ⟨_, rfl, rfl, rfl⟩
  · next h =>
    rw [if_neg h, if_pos rfl] at hclassify
    exact hclassify

end Library

end LiteralAudit
