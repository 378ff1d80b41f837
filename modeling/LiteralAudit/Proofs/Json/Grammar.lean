import LiteralAudit.Proofs.Json.Numeral

/-!
# What the JSON reader accepts

`Json.Spells n j s` says that the characters `s` write the value `j`, nested at most `n` deep, with blanks
where the format allows them. The reader reads such a value, whatever follows it: each of its functions
does with one more step of fuel what the spelling says if the others do with the fuel left
(`readsValues_succ`, `readsItems_succ`, `readsFields_succ`), and no spelling takes more steps than it has
characters.

* `Json.read?_spelled`: a text that writes a value between blanks is read as that value.
-/

namespace LiteralAudit.Json

/-! ## Strings -/

/-- The characters that a backslash and one more character stand for. -/
def shortEscapes : List (Char × Char) :=
  [('"', '"'), ('\\', '\\'), ('/', '/'), ('b', Char.ofNat 8), ('f', Char.ofNat 12), ('n', '\n'),
    ('r', '\r'), ('t', '\t')]

/-- How a character stands inside a string. -/
inductive InString : Char → List Char → Prop where
  | plain {c : Char} : 0x20 ≤ c.toNat → c ≠ '"' → c ≠ '\\' → InString c [c]
  | short {e c : Char} : (e, c) ∈ shortEscapes → InString c ['\\', e]
  | unit {n : Nat} {ds : List Char} : readUnit? ds = some (n, []) → n < 0xD800 ∨ 0xE000 ≤ n →
      InString (Char.ofNat n) ('\\' :: 'u' :: ds)

/-- How characters stand inside a string, one after another. -/
inductive Inside : List Char → List Char → Prop where
  | nil : Inside [] []
  | cons {c : Char} {cs s s' : List Char} : InString c s → Inside cs s' → Inside (c :: cs) (s ++ s')

theorem InString.length_pos {c : Char} {s : List Char} (h : InString c s) : 0 < s.length := by
  cases h <;> exact Nat.succ_pos _

theorem readUnit?_append {ds : List Char} {n : Nat} (h : readUnit? ds = some (n, [])) (rest : List Char) :
    readUnit? (ds ++ rest) = some (n, rest) := by
  match ds, h with
  | a :: b :: c :: d :: more, h =>
    simp only [readUnit?, List.cons_append] at h ⊢
    split at h
    · simp only [Option.some.injEq, Prod.mk.injEq] at h
      simp [h]
    · cases h

theorem readString?_step {c : Char} {s : List Char} (h : InString c s) (fuel : Nat)
    (done rest : List Char) :
    readString? (fuel + 1) done (s ++ rest) = readString? fuel (c :: done) rest := by
  cases h with
  | plain hlow hquote hback =>
    simp [readString?, hback, Nat.not_lt.2 hlow]
  | short h =>
    simp only [shortEscapes, List.mem_cons, Prod.mk.injEq, List.not_mem_nil, or_false] at h
    obtain ⟨rfl, rfl⟩ | ⟨rfl, rfl⟩ | ⟨rfl, rfl⟩ | ⟨rfl, rfl⟩ | ⟨rfl, rfl⟩ | ⟨rfl, rfl⟩ | ⟨rfl, rfl⟩ |
      ⟨rfl, rfl⟩ := h
    all_goals rfl
  | @unit n ds hunit hchar =>
    have hplain : charOfUnit n rest = (Char.ofNat n, rest) := by
      have hnot : ¬(0xD800 ≤ n ∧ n < 0xE000) := by omega
      simp [charOfUnit, hnot]
    simp [readString?, readUnit?_append hunit, hplain]

theorem readString?_append {cs s : List Char} (h : Inside cs s) (rest : List Char) {fuel : Nat}
    (hfuel : s.length < fuel) (done : List Char) :
    readString? fuel done (s ++ '"' :: rest) = some (done.reverse ++ cs, rest) := by
  induction h generalizing fuel done with
  | nil =>
    obtain ⟨fuel, rfl⟩ : ∃ k, fuel = k + 1 := ⟨fuel - 1, by simp at hfuel; omega⟩
    simp [readString?]
  | @cons c cs s s' hc _ ih =>
    obtain ⟨fuel, rfl⟩ : ∃ k, fuel = k + 1 := ⟨fuel - 1, by omega⟩
    have hpos := hc.length_pos
    rw [List.length_append] at hfuel
    rw [List.append_assoc, readString?_step hc, ih (by omega), List.reverse_cons, List.append_assoc]
    rfl

/-- A step for each character that is left is enough. -/
theorem readString?_whole {cs s : List Char} (h : Inside cs s) (rest : List Char) :
    readString? ((s ++ '"' :: rest).length + 1) [] (s ++ '"' :: rest) = some (cs, rest) := by
  have hlen : s.length < (s ++ '"' :: rest).length + 1 := by
    rw [List.length_append]
    omega
  exact readString?_append h rest hlen []

/-! ## Blanks -/

/-- Characters that may stand between the parts of a value. -/
def Blanks (b : List Char) : Prop := ∀ c ∈ b, isBlank c = true

theorem skipBlanks_append {b s : List Char} (hb : Blanks b) (hs : ∀ c ∈ s.head?, isBlank c = false) :
    skipBlanks (b ++ s) = s := by
  rw [skipBlanks, List.dropWhile_append_of_pos hb]
  cases s with
  | nil => rfl
  | cons c s => simp [hs c rfl]

theorem skipBlanks_cons {b s : List Char} {c : Char} (hb : Blanks b) (hc : isBlank c = false) :
    skipBlanks (b ++ c :: s) = c :: s := by
  refine skipBlanks_append hb ?_
  rintro _ ⟨⟩
  exact hc

theorem endsNumber_of_blanks {b s : List Char} (hb : Blanks b) (hs : EndsNumber s) :
    EndsNumber (b ++ s) := by
  cases b with
  | nil => exact hs
  | cons c b =>
    have hc := hb c List.mem_cons_self
    rintro _ ⟨⟩
    simp only [isBlank, Bool.or_eq_true, beq_iff_eq] at hc
    obtain ((rfl | rfl) | rfl) | rfl := hc <;> rfl

/-! ## Values -/

mutual

/-- The characters of a value that is nested at most so deep. -/
inductive Spells : Nat → Json → List Char → Prop where
  | null {n : Nat} : Spells n .null ['n', 'u', 'l', 'l']
  | ofTrue {n : Nat} : Spells n (.bool true) ['t', 'r', 'u', 'e']
  | ofFalse {n : Nat} : Spells n (.bool false) ['f', 'a', 'l', 's', 'e']
  | number {n : Nat} {cs : List Char} : IsNumeral cs → Spells n (.number (Text.ofChars cs)) cs
  | string {n : Nat} {cs s : List Char} : Inside cs s →
      Spells n (.string (Text.ofChars cs)) ('"' :: (s ++ ['"']))
  | emptyArray {n : Nat} {b : List Char} : Blanks b → Spells (n + 1) (.array []) ('[' :: (b ++ [']']))
  | array {n : Nat} {b s : List Char} {vs : List Json} : Blanks b → SpellsItems n vs s →
      Spells (n + 1) (.array vs) ('[' :: (b ++ s))
  | emptyObject {n : Nat} {b : List Char} : Blanks b → Spells (n + 1) (.object []) ('{' :: (b ++ ['}']))
  | object {n : Nat} {b s : List Char} {fs : List (Text × Json)} : Blanks b → SpellsFields n fs s →
      Spells (n + 1) (.object fs) ('{' :: (b ++ s))

/-- The characters of the items of an array and of its closing bracket. -/
inductive SpellsItems : Nat → List Json → List Char → Prop where
  | last {n : Nat} {v : Json} {s b : List Char} : Spells n v s → Blanks b →
      SpellsItems n [v] (s ++ (b ++ [']']))
  | cons {n : Nat} {v : Json} {vs : List Json} {s b b' s' : List Char} : Spells n v s → Blanks b →
      Blanks b' → SpellsItems n vs s' → SpellsItems n (v :: vs) (s ++ (b ++ ',' :: (b' ++ s')))

/-- The characters of a field: its name in quotes, a colon and its value. -/
inductive SpellsField : Nat → Text × Json → List Char → Prop where
  | mk {n : Nat} {k t s b b' : List Char} {v : Json} : Inside k t → Blanks b → Blanks b' →
      Spells n v s → SpellsField n (Text.ofChars k, v) ('"' :: (t ++ '"' :: (b ++ ':' :: (b' ++ s))))

/-- The characters of the fields of an object and of its closing brace. -/
inductive SpellsFields : Nat → List (Text × Json) → List Char → Prop where
  | last {n : Nat} {f : Text × Json} {s b : List Char} : SpellsField n f s → Blanks b →
      SpellsFields n [f] (s ++ (b ++ ['}']))
  | cons {n : Nat} {f : Text × Json} {fs : List (Text × Json)} {s b b' s' : List Char} :
      SpellsField n f s → Blanks b → Blanks b' → SpellsFields n fs s' →
      SpellsFields n (f :: fs) (s ++ (b ++ ',' :: (b' ++ s')))

end

section Reading

variable {n depth fuel : Nat} {j : Json} {vs : List Json} {fs : List (Text × Json)} {s rest : List Char}

theorem ne_of_startsNumber {c d : Char} (hc : startsNumber c = true) (hd : startsNumber d = false) :
    c ≠ d := by
  rintro rfl
  rw [hc] at hd
  cases hd

/-- A value starts neither with a blank nor with a bracket that closes an array. -/
theorem Spells.exists_cons (h : Spells n j s) : ∃ c cs, s = c :: cs ∧ isBlank c = false ∧ c ≠ ']' := by
  cases h with
  | number h =>
    obtain ⟨c, cs, hcs, hc⟩ := h.exists_cons
    refine ⟨c, cs, hcs, ?_, ne_of_startsNumber hc rfl⟩
    simp only [isBlank, Bool.or_eq_false_iff, beq_eq_false_iff_ne]
    exact ⟨⟨⟨ne_of_startsNumber hc rfl, ne_of_startsNumber hc rfl⟩, ne_of_startsNumber hc rfl⟩,
      ne_of_startsNumber hc rfl⟩
  | _ => exact ⟨_, _, rfl, rfl, by decide⟩

theorem SpellsItems.exists_cons (h : SpellsItems n vs s) :
    ∃ c cs, s = c :: cs ∧ isBlank c = false ∧ c ≠ ']' := by
  cases h with
  | last h =>
    obtain ⟨c, cs, rfl, hc⟩ := h.exists_cons
    exact ⟨c, _, rfl, hc⟩
  | cons h =>
    obtain ⟨c, cs, rfl, hc⟩ := h.exists_cons
    exact ⟨c, _, rfl, hc⟩

theorem SpellsField.exists_cons {f : Text × Json} (h : SpellsField n f s) : ∃ cs, s = '"' :: cs := by
  cases h
  exact ⟨_, rfl⟩

theorem SpellsFields.exists_cons (h : SpellsFields n fs s) : ∃ cs, s = '"' :: cs := by
  cases h with
  | last h =>
    obtain ⟨cs, rfl⟩ := h.exists_cons
    exact ⟨_, rfl⟩
  | cons h =>
    obtain ⟨cs, rfl⟩ := h.exists_cons
    exact ⟨_, rfl⟩

/-- With `fuel` steps the reader reads every value that is spelled by as many characters. -/
def ReadsValues (fuel : Nat) : Prop :=
  ∀ {n depth : Nat} {j : Json} {s rest : List Char}, Spells n j s → s.length ≤ fuel →
    depth + n ≤ maxDepth → EndsNumber rest → readValue? depth fuel (s ++ rest) = some (j, rest)

def ReadsItems (fuel : Nat) : Prop :=
  ∀ {n depth : Nat} {vs : List Json} {s : List Char}, SpellsItems n vs s → s.length ≤ fuel →
    depth + n ≤ maxDepth → ∀ done rest,
    readItems? depth fuel done (s ++ rest) = some (.array (done.reverse ++ vs), rest)

def ReadsFields (fuel : Nat) : Prop :=
  ∀ {n depth : Nat} {fs : List (Text × Json)} {s : List Char}, SpellsFields n fs s →
    s.length ≤ fuel → depth + n ≤ maxDepth → ∀ done rest,
    readFields? depth fuel done (s ++ rest) = some (.object (done.reverse ++ fs), rest)

theorem readsValues_succ (hitems : ReadsItems fuel) (hfields : ReadsFields fuel) :
    ReadsValues (fuel + 1) := by
  intro n depth j s rest h hfuel hdepth hrest
  cases h with
  | null => rfl
  | ofTrue => rfl
  | ofFalse => rfl
  | number h =>
    obtain ⟨c, cs, rfl, hc⟩ := h.exists_cons
    have hread := readNumber?_append h hrest
    have hne : ∀ {d : Char}, startsNumber d = false → c ≠ d := ne_of_startsNumber hc
    rw [List.cons_append] at hread ⊢
    simp [readValue?, hne (d := '{') rfl, hne (d := '[') rfl, hne (d := '"') rfl, hne (d := 't') rfl,
      hne (d := 'f') rfl, hne (d := 'n') rfl, hread]
  | @string n cs s h =>
    have hread := readString?_whole h rest
    have hcut : '"' :: (s ++ ['"']) ++ rest = '"' :: (s ++ '"' :: rest) := by simp
    rw [hcut]
    simp only [readValue?, hread]
    rfl
  | emptyArray hb =>
    have hdeep : ¬ depth ≥ maxDepth := by omega
    have hskip := skipBlanks_cons (s := rest) hb (c := ']') rfl
    simp [readValue?, hdeep, hskip]
  | array hb h =>
    have hdeep : ¬ depth ≥ maxDepth := by omega
    rw [List.length_cons, List.length_append] at hfuel
    have hread := hitems h (by omega) (show depth + 1 + _ ≤ maxDepth by omega) [] rest
    obtain ⟨c, cs, rfl, hc, hclose⟩ := h.exists_cons
    have hskip := skipBlanks_cons (s := cs ++ rest) hb hc
    simp only [List.cons_append] at hread
    simp [readValue?, hdeep, hskip, hclose, hread]
  | emptyObject hb =>
    have hdeep : ¬ depth ≥ maxDepth := by omega
    have hskip := skipBlanks_cons (s := rest) hb (c := '}') rfl
    simp [readValue?, hdeep, hskip]
  | object hb h =>
    have hdeep : ¬ depth ≥ maxDepth := by omega
    rw [List.length_cons, List.length_append] at hfuel
    have hread := hfields h (by omega) (show depth + 1 + _ ≤ maxDepth by omega) [] rest
    obtain ⟨cs, rfl⟩ := h.exists_cons
    have hskip := skipBlanks_cons (s := cs ++ rest) hb (c := '"') rfl
    simp only [List.cons_append] at hread
    simp [readValue?, hdeep, hskip, hread]

theorem endsNumber_cons {c : Char} (hc : continuesNumber c = false) (s : List Char) :
    EndsNumber (c :: s) := by
  rintro _ ⟨⟩
  exact hc

theorem readsItems_succ (hvalues : ReadsValues fuel) (hitems : ReadsItems fuel) :
    ReadsItems (fuel + 1) := by
  intro n depth vs s h hfuel hdepth done rest
  cases h with
  | @last _ v s b h hb =>
    have hends := endsNumber_of_blanks hb (endsNumber_cons (c := ']') rfl rest)
    rw [List.length_append, List.length_append, List.length_singleton] at hfuel
    have hread := hvalues h (by omega) hdepth hends
    have hskip := skipBlanks_cons (s := rest) hb (c := ']') rfl
    simp [readItems?, hread, hskip]
  | @cons _ v vs s b b' s' h hb hb' hs =>
    have hends := endsNumber_of_blanks hb (endsNumber_cons (c := ',') rfl (b' ++ (s' ++ rest)))
    rw [List.length_append, List.length_append, List.length_cons, List.length_append] at hfuel
    have hread := hvalues h (by omega) hdepth hends
    have hskip := skipBlanks_cons (s := b' ++ (s' ++ rest)) hb (c := ',') rfl
    have hmore := hitems hs (by omega) hdepth (v :: done) rest
    obtain ⟨c, cs, rfl, hc, -⟩ := hs.exists_cons
    have hskip' := skipBlanks_cons (s := cs ++ rest) hb' hc
    simp only [List.cons_append, List.append_assoc] at hread hskip hskip' hmore ⊢
    simp only [readItems?, hread, hskip, hskip', hmore]
    simp

/-- A field is read up to the comma or brace behind it. -/
theorem readFields?_field (hvalues : ReadsValues fuel) {f : Text × Json} (h : SpellsField n f s)
    (hfuel : s.length ≤ fuel) (hdepth : depth + n ≤ maxDepth) {b : List Char} (hb : Blanks b)
    (rest : List Char) (done : List (Text × Json)) :
    readFields? depth (fuel + 1) done (s ++ (b ++ ',' :: rest)) =
        readFields? depth fuel (f :: done) (skipBlanks rest) ∧
      readFields? depth (fuel + 1) done (s ++ (b ++ '}' :: rest)) =
        some (.object (f :: done).reverse, rest) := by
  obtain @⟨_, k, t, s, b₁, b₂, v, hk, hb₁, hb₂, h⟩ := h
  simp only [List.length_append, List.length_cons] at hfuel
  have hkey := fun c => readString?_whole hk (b₁ ++ ':' :: (b₂ ++ (s ++ (b ++ c :: rest))))
  have hcolon := fun c => skipBlanks_cons (s := b₂ ++ (s ++ (b ++ c :: rest))) hb₁ (c := ':') rfl
  have hread := fun c hends =>
    hvalues h (by omega) hdepth (endsNumber_of_blanks hb (endsNumber_cons (c := c) hends rest))
  have hcomma := skipBlanks_cons (s := rest) hb (c := ',') rfl
  have hbrace := skipBlanks_cons (s := rest) hb (c := '}') rfl
  obtain ⟨d, cs, rfl, hd, -⟩ := h.exists_cons
  have hvalue := fun c => skipBlanks_cons (s := cs ++ (b ++ c :: rest)) hb₂ hd
  simp only [List.cons_append, List.append_assoc] at hkey hcolon hread hcomma hbrace hvalue ⊢
  constructor
  · simp only [readFields?, hkey, hcolon, hvalue, hread ',' rfl, hcomma]
  · simp only [readFields?, hkey, hcolon, hvalue, hread '}' rfl, hbrace]

theorem readsFields_succ (hvalues : ReadsValues fuel) (hfields : ReadsFields fuel) :
    ReadsFields (fuel + 1) := by
  intro n depth fs s h hfuel hdepth done rest
  cases h with
  | @last _ f s b h hb =>
    rw [List.length_append, List.length_append, List.length_singleton] at hfuel
    have hread := (readFields?_field hvalues h (by omega) hdepth hb rest done).2
    simpa using hread
  | @cons _ f fs s b b' s' h hb hb' hs =>
    rw [List.length_append, List.length_append, List.length_cons, List.length_append] at hfuel
    have hread := (readFields?_field hvalues h (by omega) hdepth hb (b' ++ (s' ++ rest)) done).1
    have hmore := hfields hs (by omega) hdepth (f :: done) rest
    obtain ⟨cs, rfl⟩ := hs.exists_cons
    have hskip := skipBlanks_cons (s := cs ++ rest) hb' (c := '"') rfl
    simp only [List.cons_append, List.append_assoc] at hread hskip hmore ⊢
    rw [hread]
    simp only [hskip, hmore]
    simp

theorem reads_spelled (fuel : Nat) : ReadsValues fuel ∧ ReadsItems fuel ∧ ReadsFields fuel := by
  induction fuel with
  | zero =>
    refine ⟨?_, ?_, ?_⟩
    · intro n depth j s rest h hfuel
      obtain ⟨c, cs, rfl, -⟩ := h.exists_cons
      exact absurd hfuel (by simp)
    · intro n depth vs s h hfuel
      cases h <;> simp at hfuel
    · intro n depth fs s h hfuel
      obtain ⟨cs, rfl⟩ := h.exists_cons
      exact absurd hfuel (by simp)
  | succ fuel ih =>
    obtain ⟨hvalues, hitems, hfields⟩ := ih
    exact ⟨readsValues_succ hitems hfields, readsItems_succ hvalues hitems,
      readsFields_succ hvalues hfields⟩

/-- A text that writes a value is read as that value, between blanks and up to ten thousand deep. -/
theorem read?_spelled {t : Text} {b b' : List Char} (h : Spells n j s) (hb : Blanks b) (hb' : Blanks b')
    (hdepth : n ≤ maxDepth) (ht : t.chars = b ++ (s ++ b')) : read? t = some j := by
  obtain ⟨c, cs, hcs, hc, -⟩ := h.exists_cons
  have hskip : skipBlanks (b ++ (s ++ b')) = s ++ b' := by
    rw [hcs]
    exact skipBlanks_cons hb hc
  have hends : EndsNumber (b' ++ []) := endsNumber_of_blanks hb' (by rintro _ ⟨⟩)
  rw [List.append_nil] at hends
  have hread := (reads_spelled ((b ++ (s ++ b')).length + 1)).1 h (by simp; omega)
    (show 0 + n ≤ maxDepth by omega) hends
  have hblank := skipBlanks_append (s := []) hb' (by rintro _ ⟨⟩)
  rw [List.append_nil] at hblank
  simp only [read?, ht, hskip, hread, hblank]
  rfl

end Reading

end LiteralAudit.Json
