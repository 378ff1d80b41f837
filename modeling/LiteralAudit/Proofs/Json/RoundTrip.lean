import LiteralAudit.History
import LiteralAudit.Proofs.Json.Grammar

/-!
# JSON is read as it was written

Both layouts of the writer spell the value they write, with its texts mended (`spells_writeCompact`,
`spells_writePretty`), so that the reader reads it back (`read?_compact`, `read?_pretty`). Values with
numbers that are none, or that are nested too deep to be read again, are excluded by `Json.Fits`.
-/

namespace LiteralAudit.Json

/-! ## Strings -/

theorem ofChars_singleton (c : Char) : Text.ofChars [c] = Text.ofChar c := List.append_nil _

/-- The characters that are written by their number. -/
def escapedUnits : List Nat := List.range 0x20 ++ [0x26, 0x3C, 0x3E, 0x2028, 0x2029]

theorem inString_unit {n : Nat} (h : n ∈ escapedUnits) :
    ∃ s, InString (Char.ofNat n) s ∧ ("\\u" ++ Text.hex 4 n : Text) = Text.ofChars s := by
  have hread : ∀ n ∈ escapedUnits, readUnit? (Text.hex 4 n).chars = some (n, []) ∧
      Text.ofChars (Text.hex 4 n).chars = Text.hex 4 n ∧ n < 0xD800 := by decide
  obtain ⟨hunit, hchars, hlow⟩ := hread n h
  refine ⟨_, .unit hunit (.inl hlow), ?_⟩
  show _ = Text.ofChars (['\\', 'u'] ++ (Text.hex 4 n).chars)
  rw [Text.ofChars_append, hchars]
  rfl

theorem mem_escapedUnits {n : Nat} (h : n < 0x20 ∨ n ∈ [0x26, 0x3C, 0x3E, 0x2028, 0x2029]) :
    n ∈ escapedUnits :=
  List.mem_append.2 (h.imp_left List.mem_range.2)

/-- A character is written so that it can stand inside a string. -/
theorem inString_writeRune (e : Escaping) {c : Char} {b : UInt8} {tail : Text}
    (h : Rune.Spelled c (b :: tail)) :
    ∃ s, InString c s ∧ writeRune e b ⟨c, tail.length + 1⟩ = Text.ofChars s := by
  unfold writeRune
  rw [h.not_stray]
  simp only [Bool.false_eq_true, if_false]
  split
  · exact ⟨_, .short (e := '"') (by decide), rfl⟩
  · exact ⟨_, .short (e := '\\') (by decide), rfl⟩
  · exact ⟨_, .short (e := 'n') (by decide), rfl⟩
  · exact ⟨_, .short (e := 'r') (by decide), rfl⟩
  · exact ⟨_, .short (e := 't') (by decide), rfl⟩
  next hquote hback _ _ _ =>
    have hc : Char.ofNat c.toNat = c := Char.ofNat_toNat c
    split
    · next height =>
      have hchar : c = Char.ofNat 8 := by rw [← hc, beq_iff_eq.1 height]
      exact ⟨_, .short (e := 'b') (by rw [hchar]; decide), rfl⟩
    split
    · next htwelve =>
      have hchar : c = Char.ofNat 12 := by rw [← hc, beq_iff_eq.1 htwelve]
      exact ⟨_, .short (e := 'f') (by rw [hchar]; decide), rfl⟩
    split
    · next hescaped =>
      have hmem : c.toNat ∈ escapedUnits := by
        simp only [Bool.or_eq_true, Bool.and_eq_true, decide_eq_true_eq, beq_iff_eq] at hescaped
        obtain ((hlow | hline) | hpar) | ⟨-, (rfl | rfl) | rfl⟩ := hescaped
        · exact mem_escapedUnits (.inl hlow)
        · exact mem_escapedUnits (.inr (by simp [hline]))
        · exact mem_escapedUnits (.inr (by simp [hpar]))
        all_goals exact mem_escapedUnits (.inr (by decide))
      obtain ⟨s, hs, hwritten⟩ := inString_unit hmem
      exact ⟨s, hc ▸ hs, hwritten⟩
    · next hplain =>
      simp only [Bool.or_eq_true, decide_eq_true_eq, not_or] at hplain
      refine ⟨[c], .plain (by omega) (fun h => hquote h) (fun h => hback h), ?_⟩
      rw [ofChars_singleton]
      split
      · next hascii =>
        have hone := Rune.Spelled.one (n := c.toNat) (by simpa using hascii)
        rw [hc] at hone
        have hbytes : b :: tail = [UInt8.ofNat c.toNat] := h.ofChar_eq.symm.trans hone.ofChar_eq
        rw [h.ofChar_eq, (List.cons.inj hbytes).2]
      · rfl

/-- A stray byte is written as the escape of U+FFFD. -/
theorem inString_writeStray (e : Escaping) (b : UInt8) :
    ∃ s, InString Rune.replacement s ∧ writeRune e b Rune.stray = Text.ofChars s :=
  have hunit : readUnit? ['f', 'f', 'f', 'd'] = some (0xFFFD, []) := rfl
  ⟨_, .unit hunit (by decide), rfl⟩

theorem writeStringFrom_length (e : Escaping) (tail rest : Text) :
    writeStringFrom e tail.length (tail ++ rest) = writeStringFrom e 0 rest := by
  induction tail with
  | nil => rfl
  | cons b tail ih => exact ih

/-- A text is written as its characters stand inside a string. -/
theorem inside_writeStringFrom (e : Escaping) (t : Text) :
    ∃ s, Inside t.chars s ∧ writeStringFrom e 0 t = Text.ofChars s := by
  induction t using Text.rune_induction with
  | nil => exact ⟨[], .nil, rfl⟩
  | spelled c b tail rest hspelled ih =>
    obtain ⟨s, hs, hwritten⟩ := inString_writeRune e hspelled
    obtain ⟨s', hs', hrest⟩ := ih
    refine ⟨s ++ s', ?_, ?_⟩
    · rw [Text.chars, Text.runes_spelled hspelled]
      exact .cons hs hs'
    · show writeRune e b (Rune.first b (tail ++ rest)) ++ writeStringFrom e
        ((Rune.first b (tail ++ rest)).width - 1) (tail ++ rest) = _
      rw [Rune.first_of_spelled hspelled, hwritten, Nat.add_sub_cancel, writeStringFrom_length, hrest,
        Text.ofChars_append]
  | stray b rest hstray ih =>
    obtain ⟨s, hs, hwritten⟩ := inString_writeStray e b
    obtain ⟨s', hs', hrest⟩ := ih
    refine ⟨s ++ s', ?_, ?_⟩
    · rw [Text.chars, Text.runes_stray hstray]
      exact .cons hs hs'
    · show writeRune e b (Rune.first b rest) ++ writeStringFrom e ((Rune.first b rest).width - 1) rest = _
      rw [Text.eq_stray_of_isStray hstray, hwritten, Text.ofChars_append, ← hrest]
      rfl

mutual

/-- The value with its texts as they are read again. -/
def mended : Json → Json
  | .null => .null
  | .bool b => .bool b
  | .number t => .number t
  | .string t => .string t.mended
  | .array vs => .array (mendedItems vs)
  | .object fs => .object (mendedFields fs)

def mendedItems : List Json → List Json
  | [] => []
  | v :: vs => v.mended :: mendedItems vs

def mendedFields : List (Text × Json) → List (Text × Json)
  | [] => []
  | (k, v) :: fs => (k.mended, v.mended) :: mendedFields fs

end

theorem mendedItems_eq (vs : List Json) : mendedItems vs = vs.map mended := by
  induction vs with
  | nil => rfl
  | cons v vs ih => rw [mendedItems, ih, List.map_cons]

theorem mendedFields_eq (fs : List (Text × Json)) :
    mendedFields fs = fs.map fun f => (f.1.mended, f.2.mended) := by
  induction fs with
  | nil => rfl
  | cons f fs ih => rw [mendedFields, ih, List.map_cons]

/-- Values that can be read again: what stands for a number is one, and nothing is nested deeper than
`n`. -/
inductive Fits : Nat → Json → Prop where
  | null {n : Nat} : Fits n .null
  | bool {n : Nat} (b : Bool) : Fits n (.bool b)
  | number {n : Nat} {cs : List Char} : IsNumeral cs → Fits n (.number (Text.ofChars cs))
  | string {n : Nat} (t : Text) : Fits n (.string t)
  | array {n : Nat} {vs : List Json} : (∀ v ∈ vs, Fits n v) → Fits (n + 1) (.array vs)
  | object {n : Nat} {fs : List (Text × Json)} : (∀ f ∈ fs, Fits n f.2) → Fits (n + 1) (.object fs)

/-! ## Layouts -/

theorem inside_writeString (e : Escaping) (t : Text) :
    ∃ s, Inside t.chars s ∧ writeString e t = Text.ofChars ('"' :: (s ++ ['"'])) := by
  obtain ⟨s, hs, hwritten⟩ := inside_writeStringFrom e t
  refine ⟨s, hs, ?_⟩
  rw [writeString, hwritten, Text.ofChars_cons, Text.ofChars_append]
  exact List.append_assoc ..

theorem spells_string (e : Escaping) (n : Nat) (t : Text) :
    ∃ s, Spells n (.string t.mended) s ∧ writeString e t = Text.ofChars s := by
  obtain ⟨s, hs, hwritten⟩ := inside_writeString e t
  exact ⟨_, .string hs, hwritten⟩

theorem exists_newLine (level : Nat) : ∃ b, Blanks b ∧ newLine level = Text.ofChars b := by
  refine ⟨'\n' :: List.replicate (2 * level) ' ', ?_, ?_⟩
  · intro c hc
    obtain rfl | hc := List.mem_cons.1 hc
    · rfl
    · rw [List.eq_of_mem_replicate hc]
      rfl
  · rw [newLine, Text.ofChars_cons, Text.ofChars_replicate (b := ' ') (by decide)]
    rfl

theorem blanks_nil : Blanks [] := by
  rintro _ ⟨⟩

theorem blanks_singleton {c : Char} (h : isBlank c = true) : Blanks [c] := by
  intro d hd
  rwa [List.mem_singleton.1 hd]

section Layout

variable {n : Nat} {sep close : List Char} (hsep : Blanks sep) (hclose : Blanks close)

include hsep hclose

/-- Items are spelled with the same blanks behind each comma, and others before the closing bracket. -/
theorem spellsItems_written {write : Json → Text} (more : List Json → Text) (hnil : more [] = [])
    (hcons : ∀ v vs, more (v :: vs) = "," ++ Text.ofChars sep ++ write v ++ more vs) (v : Json)
    (vs : List Json) (h : ∀ x ∈ v :: vs, ∃ s, Spells n x.mended s ∧ write x = Text.ofChars s) :
    ∃ s, SpellsItems n ((v :: vs).map mended) s ∧
      write v ++ more vs ++ Text.ofChars close ++ "]" = Text.ofChars s := by
  have hbracket : Text.ofString "]" = Text.ofChars [']'] := rfl
  have hcomma : Text.ofString "," = Text.ofChars [','] := rfl
  obtain ⟨s, hs, hwritten⟩ := h v List.mem_cons_self
  induction vs generalizing v s with
  | nil =>
    refine ⟨_, .last hs hclose, ?_⟩
    simp only [hnil, hwritten, hbracket, Text.ofChars_append, List.append_nil, List.append_assoc]
  | cons w vs ih =>
    have htail := fun x hx => h x (List.mem_cons_of_mem v hx)
    obtain ⟨s₁, hs₁, hwritten₁⟩ := htail w List.mem_cons_self
    obtain ⟨s', hs', hmore⟩ := ih w htail s₁ hs₁ hwritten₁
    refine ⟨_, .cons hs blanks_nil hsep hs', ?_⟩
    rw [hcons, hwritten, List.nil_append, Text.ofChars_append, Text.ofChars_cons, Text.ofChars_append,
      ← hmore, hcomma, ofChars_singleton]
    simp only [List.append_assoc]

/-- So are fields. -/
theorem spellsFields_written {write : Text × Json → Text} (more : List (Text × Json) → Text)
    (hnil : more [] = [])
    (hcons : ∀ f fs, more (f :: fs) = "," ++ Text.ofChars sep ++ write f ++ more fs) (f : Text × Json)
    (fs : List (Text × Json))
    (h : ∀ x ∈ f :: fs, ∃ s, SpellsField n (x.1.mended, x.2.mended) s ∧ write x = Text.ofChars s) :
    ∃ s, SpellsFields n ((f :: fs).map fun x => (x.1.mended, x.2.mended)) s ∧
      write f ++ more fs ++ Text.ofChars close ++ "\x7d" = Text.ofChars s := by
  have hbrace : Text.ofString "\x7d" = Text.ofChars ['}'] := rfl
  have hcomma : Text.ofString "," = Text.ofChars [','] := rfl
  obtain ⟨s, hs, hwritten⟩ := h f List.mem_cons_self
  induction fs generalizing f s with
  | nil =>
    refine ⟨_, .last hs hclose, ?_⟩
    simp only [hnil, hwritten, hbrace, Text.ofChars_append, List.append_nil, List.append_assoc]
  | cons w fs ih =>
    have htail := fun x hx => h x (List.mem_cons_of_mem f hx)
    obtain ⟨s₁, hs₁, hwritten₁⟩ := htail w List.mem_cons_self
    obtain ⟨s', hs', hmore⟩ := ih w htail s₁ hs₁ hwritten₁
    refine ⟨_, .cons hs blanks_nil hsep hs', ?_⟩
    rw [hcons, hwritten, List.nil_append, Text.ofChars_append, Text.ofChars_cons, Text.ofChars_append,
      ← hmore, hcomma, ofChars_singleton]
    simp only [List.append_assoc]

end Layout

/-- A field is spelled with blanks behind its colon. -/
theorem spellsField_written (e : Escaping) {n : Nat} {space : List Char} (hspace : Blanks space)
    {f : Text × Json} {written : Text}
    (h : ∃ s, Spells n f.2.mended s ∧ written = Text.ofChars s) :
    ∃ s, SpellsField n (f.1.mended, f.2.mended) s ∧
      writeString e f.1 ++ ":" ++ Text.ofChars space ++ written = Text.ofChars s := by
  obtain ⟨t, ht, hname⟩ := inside_writeString e f.1
  obtain ⟨s, hs, rfl⟩ := h
  have hcolon : Text.ofString ":" = Text.ofChars [':'] := rfl
  refine ⟨_, .mk ht blanks_nil hspace hs, ?_⟩
  rw [hname, hcolon, ← Text.ofChars_append, ← Text.ofChars_append, ← Text.ofChars_append]
  simp only [List.cons_append, List.append_assoc, List.nil_append]

theorem spells_bool (n : Nat) (b : Bool) :
    ∃ s, Spells n (.bool b) s ∧ (if b then "true" else "false" : Text) = Text.ofChars s := by
  cases b with
  | true => exact ⟨_, .ofTrue, rfl⟩
  | false => exact ⟨_, .ofFalse, rfl⟩

theorem spells_writePretty (e : Escaping) {n : Nat} {j : Json} (h : Fits n j) (level : Nat) :
    ∃ s, Spells n j.mended s ∧ writePretty e level j = Text.ofChars s := by
  induction h generalizing level with
  | null => exact ⟨_, .null, rfl⟩
  | bool b => exact spells_bool _ b
  | number h => exact ⟨_, .number h, rfl⟩
  | string t => exact spells_string e _ t
  | @array n vs _ ih =>
    obtain ⟨close, hclose, hend⟩ := exists_newLine level
    obtain ⟨sep, hsep, hline⟩ := exists_newLine (level + 1)
    rw [mended, mendedItems_eq]
    cases vs with
    | nil => exact ⟨_, .emptyArray blanks_nil, rfl⟩
    | cons v vs =>
      obtain ⟨s, hs, hwritten⟩ := spellsItems_written hsep hclose
        (writePrettyItems e (level + 1)) rfl (fun v vs => by rw [writePrettyItems, hline]) v vs
        fun x hx => ih x hx (level + 1)
      refine ⟨_, .array hsep hs, ?_⟩
      rw [writePretty, Text.ofChars_cons, Text.ofChars_append, ← hwritten, hline, hend]
      simp only [List.append_assoc]
      rfl
  | @object n fs _ ih =>
    obtain ⟨close, hclose, hend⟩ := exists_newLine level
    obtain ⟨sep, hsep, hline⟩ := exists_newLine (level + 1)
    have hspace : Blanks [' '] := blanks_singleton rfl
    rw [mended, mendedFields_eq]
    cases fs with
    | nil => exact ⟨_, .emptyObject blanks_nil, rfl⟩
    | cons f fs =>
      have hcons : ∀ (f : Text × Json) fs, writePrettyFields e (level + 1) (f :: fs) =
          "," ++ Text.ofChars sep ++ (writeString e f.1 ++ ":" ++ Text.ofChars [' '] ++
            writePretty e (level + 1) f.2) ++ writePrettyFields e (level + 1) fs := by
        intro f fs
        rw [writePrettyFields, hline]
        simp only [List.append_assoc]
        rfl
      obtain ⟨s, hs, hwritten⟩ := spellsFields_written hsep hclose _ rfl hcons f fs
        fun x hx => spellsField_written e hspace (ih x hx (level + 1))
      refine ⟨_, .object hsep hs, ?_⟩
      rw [writePretty, Text.ofChars_cons, Text.ofChars_append, ← hwritten, hline, hend]
      simp only [List.append_assoc]
      rfl

theorem spells_writeCompact (e : Escaping) {n : Nat} {j : Json} (h : Fits n j) :
    ∃ s, Spells n j.mended s ∧ writeCompact e j = Text.ofChars s := by
  induction h with
  | null => exact ⟨_, .null, rfl⟩
  | bool b => exact spells_bool _ b
  | number h => exact ⟨_, .number h, rfl⟩
  | string t => exact spells_string e _ t
  | @array n vs _ ih =>
    rw [mended, mendedItems_eq]
    cases vs with
    | nil => exact ⟨_, .emptyArray blanks_nil, rfl⟩
    | cons v vs =>
      have hcons : ∀ v vs, writeCompactItems e false (v :: vs) =
          "," ++ Text.ofChars [] ++ writeCompact e v ++ writeCompactItems e false vs := fun _ _ => rfl
      obtain ⟨s, hs, hwritten⟩ := spellsItems_written blanks_nil blanks_nil _ rfl hcons v vs ih
      refine ⟨_, .array blanks_nil hs, ?_⟩
      rw [writeCompact, writeCompactItems, Text.ofChars_cons, List.nil_append, ← hwritten]
      simp only [List.append_assoc]
      rfl
  | @object n fs _ ih =>
    rw [mended, mendedFields_eq]
    cases fs with
    | nil => exact ⟨_, .emptyObject blanks_nil, rfl⟩
    | cons f fs =>
      have hcons : ∀ (f : Text × Json) fs, writeCompactFields e false (f :: fs) =
          "," ++ Text.ofChars [] ++ (writeString e f.1 ++ ":" ++ Text.ofChars [] ++
            writeCompact e f.2) ++ writeCompactFields e false fs := by
        intro f fs
        rw [writeCompactFields]
        simp only [List.append_assoc]
        rfl
      obtain ⟨s, hs, hwritten⟩ := spellsFields_written blanks_nil blanks_nil _ rfl hcons f fs
        fun x hx => spellsField_written e blanks_nil (ih x hx)
      refine ⟨_, .object blanks_nil hs, ?_⟩
      rw [writeCompact, writeCompactFields, Text.ofChars_cons, List.nil_append, ← hwritten]
      simp only [List.append_assoc]
      rfl

/-! ## Reading what was written -/

variable {n : Nat} {j : Json}

theorem read?_line {t : Text} (h : ∃ s, Spells n j s ∧ t = Text.ofChars s) (hdepth : n ≤ maxDepth) :
    read? (t ++ "\n") = some j := by
  obtain ⟨s, hs, rfl⟩ := h
  have hline : Text.ofString "\n" = Text.ofChars ['\n'] := rfl
  have hend : Blanks ['\n'] := blanks_singleton rfl
  refine read?_spelled hs blanks_nil hend hdepth ?_
  rw [hline, ← Text.ofChars_append, Text.chars_ofChars, List.nil_append]

/-- A value on one line, with the line's end, is read as it was written. -/
theorem read?_compact (h : Fits n j) (hdepth : n ≤ maxDepth) :
    read? (j.compact ++ "\n") = some j.mended :=
  read?_line (spells_writeCompact {} h) hdepth

/-- So is one on several lines. -/
theorem read?_pretty (h : Fits n j) (hdepth : n ≤ maxDepth) :
    read? (j.pretty ++ "\n") = some j.mended :=
  read?_line (spells_writePretty {} h 0) hdepth

end LiteralAudit.Json
