import LiteralAudit.Literal.Go.Scanner
import LiteralAudit.Proofs.Text.Utf8

/-!
# Strings that are scanned can be read

The scanner reads the characters of a string and complains about its escapes; its value is read from the
bytes of its spelling by `Text.unquote?`. A string without complaints **has a value**
(`isSome_unquote?_quoted`, `isSome_unquote?_raw`): what the scanner accepts as an escape is one for
`Text.unescape?` too, and no byte of a character beyond ASCII is a quote, a backslash or a line break.
-/

namespace LiteralAudit

/-! ## The bytes of characters in strings -/

namespace Text

/-- What holds of the first 128 characters holds of every character of ASCII. -/
theorem forall_ascii {P : Char → Prop} (hP : ∀ n < 128, P (Char.ofNat n)) {c : Char}
    (hc : c.toNat < 128) : P c := Char.ofNat_toNat c ▸ hP c.toNat hc

theorem ofChar_ascii {c : Char} (hc : c.toNat < 128) : ofChar c = [c.toUInt8] :=
  forall_ascii (P := fun c => ofChar c = [c.toUInt8]) (by decide) hc

/-- A character beyond ASCII has no byte of one in it. -/
theorem le_of_mem_ofChar {c : Char} (hc : 128 ≤ c.toNat) {b : UInt8} (hb : b ∈ ofChar c) :
    0x80 ≤ b.toNat := by
  obtain ⟨bytes, hspelled⟩ := Rune.Spelled.exists_bytes c
  rw [hspelled.ofChar_eq] at hb
  cases hspelled with
  | @one n hn =>
    rw [Char.toNat_ofNat, if_pos (.inl (by omega))] at hc
    omega
  | two | three | four =>
    simp only [List.mem_cons, List.not_mem_nil, or_false] at hb
    rcases hb with rfl | rfl | rfl | rfl <;> rw [UInt8.toNat_ofNat'] <;> omega

/-! ## What escapes stand for -/

theorem unescape?_x (rest : Text) : unescape? 'x' rest =
    if rest.length < 2 then none
    else (hexNumber? (rest.take 2)).map fun n => ([UInt8.ofNat n], rest.drop 2) := rfl

theorem unescape?_u (rest : Text) : unescape? 'u' rest =
    if rest.length < 4 then none
    else match hexNumber? (rest.take 4) with
      | some n => if n.isValidChar then some (ofChar (Char.ofNat n), rest.drop 4) else none
      | none => none := rfl

theorem unescape?_U (rest : Text) : unescape? 'U' rest =
    if rest.length < 8 then none
    else match hexNumber? (rest.take 8) with
      | some n => if n.isValidChar then some (ofChar (Char.ofNat n), rest.drop 8) else none
      | none => none := rfl

theorem unescape?_octal {x y z : Nat} (hx : x < 8) (hy : y < 8) (hz : z < 8)
    (hmost : (x * 8 + y) * 8 + z < 256) (rest : Text) :
    unescape? (UInt8.ofNat (48 + x)) (UInt8.ofNat (48 + y) :: UInt8.ofNat (48 + z) :: rest) =
      some ([UInt8.ofNat ((x * 8 + y) * 8 + z)], rest) := by
  have hdigit : ∀ n < 8, ('0' : UInt8) ≤ UInt8.ofNat (48 + n) ∧ UInt8.ofNat (48 + n) ≤ ('7' : UInt8) ∧
      (UInt8.ofNat (48 + n)).toNat - 48 = n := by decide
  have hstart : ∀ {c d : UInt8} {rest : Text}, unescape? (UInt8.ofNat (48 + x)) (c :: d :: rest) =
      if ('0' : UInt8) ≤ c && c ≤ ('7' : UInt8) && ('0' : UInt8) ≤ d && d ≤ ('7' : UInt8) then
        let n := 64 * ((UInt8.ofNat (48 + x)).toNat - 48) + 8 * (c.toNat - 48) + (d.toNat - 48)
        if n < 256 then some ([UInt8.ofNat n], rest) else none
      else none := by
    intro c d rest
    interval_cases x <;> rfl
  have hvalue : 64 * x + 8 * y + z = (x * 8 + y) * 8 + z := by omega
  rw [hstart]
  simp only [hdigit x hx, hdigit y hy, hdigit z hz, decide_true, Bool.and_self, if_true, hvalue,
    if_pos hmost]

/-! ## Texts that can be unquoted -/

/-- Between quotes the text has a value, whatever comes before it. -/
def Unquotes (t : Text) : Prop := ∀ fuel done, t.length < fuel → (unquoteFrom fuel done t).isSome

theorem Unquotes.nil : Unquotes [] := by
  rintro (_ | fuel) done hfuel
  · cases hfuel
  · rfl

/-- A byte that ends no string and starts no escape stands for itself. -/
theorem Unquotes.cons {b : UInt8} {t : Text} (ht : Unquotes t) (hquote : b ≠ '"') (hbreak : b ≠ '\n')
    (hescape : b ≠ '\\') : Unquotes (b :: t) := by
  rintro (_ | fuel) done hfuel
  · cases hfuel
  unfold unquoteFrom
  dsimp only
  rw [if_neg (by simp [hquote, hbreak]), if_neg (by simpa using hescape)]
  exact ht fuel (b :: done) (Nat.lt_of_succ_lt_succ hfuel)

theorem Unquotes.append {bs t : Text} (ht : Unquotes t)
    (hbs : ∀ b ∈ bs, b ≠ '"' ∧ b ≠ '\n' ∧ b ≠ '\\') : Unquotes (bs ++ t) := by
  induction bs with
  | nil => exact ht
  | cons b bs ih =>
    have hb := hbs b List.mem_cons_self
    exact (ih fun c hc => hbs c (List.mem_cons_of_mem b hc)).cons hb.1 hb.2.1 hb.2.2

/-- The text is what an escape is written as behind its backslash, whatever follows. -/
def IsEscape : Text → Prop
  | [] => False
  | e :: more => ∀ rest, ∃ value, unescape? e (more ++ rest) = some (value, rest)

theorem Unquotes.escape {escape t : Text} (ht : Unquotes t) (hescape : IsEscape escape) :
    Unquotes ('\\' :: (escape ++ t)) := by
  match escape with
  | e :: more =>
    rintro (_ | fuel) done hfuel
    · cases hfuel
    obtain ⟨value, hvalue⟩ := hescape t
    unfold unquoteFrom
    dsimp only [List.cons_append]
    rw [if_neg (by decide), if_pos (by decide), hvalue]
    refine ht fuel _ ?_
    simp only [List.length_cons, List.length_append] at hfuel
    omega

/-- A text in double quotes. -/
theorem isSome_unquote?_quoted {body : Text} (hbody : Unquotes body) :
    (unquote? ('"' :: (body ++ [('"' : UInt8)]))).isSome := by
  have hne : body ++ [('"' : UInt8)] ≠ [] := by simp
  obtain ⟨b, rest, hrest⟩ := List.exists_cons_of_ne_nil hne
  rw [hrest]
  unfold unquote?
  dsimp only
  rw [← hrest, List.getLast?_concat, if_neg (by simp), List.dropLast_concat, if_pos (by simp)]
  exact hbody _ _ (Nat.lt_succ_self _)

/-- A text in backquotes. -/
theorem isSome_unquote?_raw {body : Text} (hbody : (0x60 : UInt8) ∉ body) :
    (unquote? (0x60 :: (body ++ [0x60]))).isSome := by
  have hne : body ++ [(0x60 : UInt8)] ≠ [] := by simp
  obtain ⟨b, rest, hrest⟩ := List.exists_cons_of_ne_nil hne
  rw [hrest]
  unfold unquote?
  dsimp only
  rw [← hrest, List.getLast?_concat, if_neg (by simp), List.dropLast_concat, if_neg (by decide),
    if_pos (by decide), if_neg (by simpa using hbody)]
  rfl

end Text

namespace Go

/-! ## The spelling of cells -/

@[simp] theorem spelling_nil : spelling [] = [] := rfl

@[simp] theorem spelling_cons (c : Cell) (cs : List Cell) :
    spelling (c :: cs) = Text.ofChar c.char ++ spelling cs := rfl

@[simp] theorem spelling_append (cs ds : List Cell) :
    spelling (cs ++ ds) = spelling cs ++ spelling ds := by
  rw [spelling, List.map_append, Text.ofChars_append]
  rfl

theorem exists_of_mem_spelling {cs : List Cell} {b : UInt8} (hb : b ∈ spelling cs) :
    ∃ c ∈ cs, b ∈ Text.ofChar c.char := by
  obtain ⟨c, hc, hb⟩ := List.mem_flatMap.1 hb
  obtain ⟨cell, hcell, rfl⟩ := List.mem_map.1 hc
  exact ⟨cell, hcell, hb⟩

theorem spelling_ascii {cs : List Cell} (hcs : ∀ c ∈ cs, c.char.toNat < 128) :
    spelling cs = cs.map fun c => c.char.toUInt8 := by
  induction cs with
  | nil => rfl
  | cons c cs ih =>
    rw [spelling_cons, Text.ofChar_ascii (hcs c List.mem_cons_self),
      ih fun d hd => hcs d (List.mem_cons_of_mem c hd)]
    rfl

/-- A character that is none of a few ASCII characters has none of their bytes. -/
theorem ne_of_mem_ofChar {c d : Char} (hd : d.toNat < 128) (hcd : c ≠ d) {b : UInt8}
    (hb : b ∈ Text.ofChar c) : b ≠ d := by
  rintro rfl
  have hbyte : d.toUInt8.toNat = d.toNat :=
    Text.forall_ascii (P := fun d => d.toUInt8.toNat = d.toNat) (by decide) hd
  rcases lt_or_ge c.toNat 128 with hc | hc
  · rw [Text.ofChar_ascii hc, List.mem_singleton] at hb
    have hc' : c.toUInt8.toNat = c.toNat :=
      Text.forall_ascii (P := fun c => c.toUInt8.toNat = c.toNat) (by decide) hc
    exact hcd (Char.toNat_inj.1 (by rw [← hc', ← hbyte, hb]))
  · have hge := Text.le_of_mem_ofChar hc hb
    omega

/-! ## Escapes -/

/-- The value of a hexadecimal digit; more than any for other characters. -/
def escapeDigit (c : Char) : Nat :=
  if isHex c then (if c.isDigit then c.toNat - 48 else c.toLower.toNat - 87) else 16

theorem toNat_lt_of_escapeDigit {c : Char} (hc : escapeDigit c < 16) : c.toNat < 128 := by
  unfold escapeDigit at hc
  split at hc
  · next hhex =>
    simp only [isHex, Bool.or_eq_true, Bool.and_eq_true, decide_eq_true_eq, Char.isDigit] at hhex
    rcases hhex with (⟨-, hle⟩ | ⟨-, hle⟩) | ⟨-, hle⟩ <;>
      exact (UInt32.le_iff_toNat_le.1 hle).trans_lt (by decide)
  · cases Nat.lt_irrefl 16 hc

theorem hexValue?_of_escapeDigit {c : Char} (hc : escapeDigit c < 16) :
    Text.hexValue? c.toUInt8 = some (escapeDigit c) :=
  Text.forall_ascii (P := fun c => escapeDigit c < 16 → Text.hexValue? c.toUInt8 = some (escapeDigit c))
    (by decide) (toNat_lt_of_escapeDigit hc) hc

/-- The digits that are read are as many as wanted, and of the base. -/
theorem exists_of_escapeDigits {size base count n m : Nat} {cs rest : List Cell}
    (h : escapeDigits size base count n cs = .ok (m, rest)) :
    ∃ ds : List Cell, cs = ds ++ rest ∧ ds.length = count ∧ (∀ d ∈ ds, escapeDigit d.char < base) ∧
      m = ds.foldl (fun n d => n * base + escapeDigit d.char) n := by
  induction count generalizing n cs with
  | zero =>
    cases h
    exact ⟨[], rfl, rfl, nofun, rfl⟩
  | succ count ih =>
    match cs with
    | [] => cases h
    | c :: cs =>
      rw [escapeDigits] at h
      change (if escapeDigit c.char < base then
        escapeDigits size base count (n * base + escapeDigit c.char) cs else _) = _ at h
      split at h
      · next hc =>
        obtain ⟨ds, rfl, rfl, hds, rfl⟩ := ih h
        refine ⟨c :: ds, rfl, rfl, ?_, rfl⟩
        simpa using ⟨hc, hds⟩
      · cases h

/-- Hexadecimal digits are read as the number that they write. -/
theorem hexNumber?_spelling {ds : List Cell} (hds : ∀ d ∈ ds, escapeDigit d.char < 16) :
    Text.hexNumber? (ds.map fun d => d.char.toUInt8) =
      some (ds.foldl (fun n d => n * 16 + escapeDigit d.char) 0) := by
  unfold Text.hexNumber?
  generalize 0 = n
  induction ds generalizing n with
  | nil => rfl
  | cons d ds ih =>
    rw [List.map_cons, List.foldl_cons, List.foldl_cons,
      hexValue?_of_escapeDigit (hds d List.mem_cons_self)]
    dsimp only
    rw [Nat.mul_comm 16 n]
    exact ih (fun e he => hds e (List.mem_cons_of_mem d he)) _

/-- Digits of a numeric escape are written as their bytes. -/
theorem spelling_digits {base : Nat} (hbase : base ≤ 16) {ds : List Cell}
    (hds : ∀ d ∈ ds, escapeDigit d.char < base) :
    spelling ds = ds.map fun d => d.char.toUInt8 :=
  spelling_ascii fun d hd => toNat_lt_of_escapeDigit ((hds d hd).trans_le hbase)

/-- What a numeric escape is read as: enough digits of its base, of a number that is allowed. -/
theorem isEscape_hex {letter : Char} {ds : List Cell} {m : Nat}
    (hds : ∀ d ∈ ds, escapeDigit d.char < 16)
    (hm : m = ds.foldl (fun n d => n * 16 + escapeDigit d.char) 0)
    (hletter : letter = 'x' ∧ ds.length = 2 ∨
      (letter = 'u' ∧ ds.length = 4 ∨ letter = 'U' ∧ ds.length = 8) ∧ m.isValidChar) :
    Text.IsEscape (letter.toUInt8 :: spelling ds) := by
  intro rest
  rw [spelling_digits le_rfl hds]
  have hnumber : Text.hexNumber? (ds.map fun d => d.char.toUInt8) = some m := by
    rw [hm, hexNumber?_spelling hds]
  have htake {n : Nat} (hn : ds.length = n) :
      ((ds.map fun d => d.char.toUInt8) ++ rest).take n = ds.map fun d => d.char.toUInt8 := by
    simp [← hn]
  have hdrop {n : Nat} (hn : ds.length = n) :
      ((ds.map fun d => d.char.toUInt8) ++ rest).drop n = rest := by
    simp [← hn]
  have hlength {n : Nat} (hn : ds.length = n) :
      ¬ ((ds.map fun d => d.char.toUInt8) ++ rest).length < n := by
    simp [← hn]
  rcases hletter with ⟨rfl, hn⟩ | ⟨⟨rfl, hn⟩ | ⟨rfl, hn⟩, hvalid⟩
  · refine ⟨[UInt8.ofNat m], ?_⟩
    rw [Text.unescape?_x, if_neg (hlength hn), htake hn, hdrop hn, hnumber]
    rfl
  · refine ⟨Text.ofChar (Char.ofNat m), ?_⟩
    rw [Text.unescape?_u, if_neg (hlength hn), htake hn, hdrop hn, hnumber]
    exact if_pos hvalid
  · refine ⟨Text.ofChar (Char.ofNat m), ?_⟩
    rw [Text.unescape?_U, if_neg (hlength hn), htake hn, hdrop hn, hnumber]
    exact if_pos hvalid

theorem toUInt8_of_escapeDigit {c : Char} (hc : escapeDigit c < 8) :
    c.toUInt8 = UInt8.ofNat (48 + escapeDigit c) :=
  Text.forall_ascii (P := fun c => escapeDigit c < 8 → c.toUInt8 = UInt8.ofNat (48 + escapeDigit c))
    (by decide) (toNat_lt_of_escapeDigit (hc.trans (by decide))) hc

theorem isEscape_octal {ds : List Cell} {m : Nat} (hlength : ds.length = 3)
    (hds : ∀ d ∈ ds, escapeDigit d.char < 8)
    (hm : m = ds.foldl (fun n d => n * 8 + escapeDigit d.char) 0) (hmost : m < 256) :
    Text.IsEscape (spelling ds) := by
  obtain ⟨a, b, c, rfl⟩ := List.length_eq_three.1 hlength
  simp only [List.mem_cons, List.not_mem_nil, or_false, forall_eq_or_imp, forall_eq] at hds
  obtain ⟨ha, hb, hc⟩ := hds
  have hspelling : spelling [a, b, c] = [a.char.toUInt8, b.char.toUInt8, c.char.toUInt8] :=
    spelling_digits (show 8 ≤ 16 by decide) (by simpa using ⟨ha, hb, hc⟩)
  simp only [List.foldl_cons, List.foldl_nil, Nat.zero_mul, Nat.zero_add] at hm
  rw [hspelling, toUInt8_of_escapeDigit ha, toUInt8_of_escapeDigit hb, toUInt8_of_escapeDigit hc]
  intro rest
  exact ⟨[UInt8.ofNat m], hm ▸ Text.unescape?_octal ha hb hc (hm ▸ hmost) rest⟩

/-- A character that is escaped by a letter or by itself. -/
theorem isEscape_simple {c : Char}
    (hc : c = '"' ∨ c ∈ ['a', 'b', 'f', 'n', 'r', 't', 'v', '\\']) :
    Text.IsEscape (Text.ofChar c) := by
  have hc : c ∈ ['"', 'a', 'b', 'f', 'n', 'r', 't', 'v', '\\'] := by simpa using hc
  fin_cases hc <;> exact fun rest => ⟨_, rfl⟩

/-- What the scanner has nothing to say about is an escape. -/
theorem exists_of_scanEscape {size : Nat} {cs rest : List Cell}
    (h : scanEscape size '"' cs = (rest, none)) :
    ∃ escape : List Cell, cs = escape ++ rest ∧ Text.IsEscape (spelling escape) := by
  unfold scanEscape at h
  extract_lets numeric at h
  have hnumeric {count base most : Nat} {from_ : List Cell}
      (h : numeric count base most from_ = (rest, none)) :
      ∃ (ds : List Cell) (m : Nat), from_ = ds ++ rest ∧ ds.length = count ∧
        (∀ d ∈ ds, escapeDigit d.char < base) ∧
        m = ds.foldl (fun n d => n * base + escapeDigit d.char) 0 ∧
        m ≤ most ∧ (m < 0xD800 ∨ 0xE000 ≤ m) := by
    unfold numeric at h
    split at h
    · cases h
    · next m rest' hdigits =>
      split at h
      · cases h
      · next hallowed =>
        cases h
        obtain ⟨ds, hfrom, hlength, hds, hm⟩ := exists_of_escapeDigits hdigits
        refine ⟨ds, m, hfrom, hlength, hds, hm, ?_⟩
        simp only [Bool.or_eq_true, Bool.and_eq_true, decide_eq_true_eq] at hallowed
        omega
  match cs with
  | [] => cases h
  | c :: cs =>
    dsimp only at h
    split at h
    · next hsimple =>
      cases h
      refine ⟨[c], rfl, ?_⟩
      simp only [Bool.or_eq_true, beq_iff_eq, List.contains_iff_mem] at hsimple
      simpa using isEscape_simple hsimple
    split at h
    · obtain ⟨ds, m, hcs, hlength, hds, hm, hmost, -⟩ := hnumeric h
      exact ⟨ds, hcs, isEscape_octal hlength hds hm (by omega)⟩
    split at h
    · next hx =>
      obtain ⟨ds, m, rfl, hlength, hds, hm, -, -⟩ := hnumeric h
      refine ⟨c :: ds, rfl, ?_⟩
      rw [spelling_cons, eq_of_beq hx]
      exact isEscape_hex hds hm (.inl ⟨rfl, hlength⟩)
    split at h
    · next hu =>
      obtain ⟨ds, m, rfl, hlength, hds, hm, hmost, hvalid⟩ := hnumeric h
      refine ⟨c :: ds, rfl, ?_⟩
      rw [spelling_cons, eq_of_beq hu]
      exact isEscape_hex hds hm (.inr ⟨.inl ⟨rfl, hlength⟩, by show _ ∨ _; omega⟩)
    split at h
    · next hU =>
      obtain ⟨ds, m, rfl, hlength, hds, hm, hmost, hvalid⟩ := hnumeric h
      refine ⟨c :: ds, rfl, ?_⟩
      rw [spelling_cons, eq_of_beq hU]
      exact isEscape_hex hds hm (.inr ⟨.inr ⟨rfl, hlength⟩, by show _ ∨ _; omega⟩)
    · cases h

/-! ## Strings -/

/-- What was wrong before stays noted. -/
theorem scanString_notes (size start fuel : Nat) (notes : List Note) (cs : List Cell) :
    ∃ more, (scanString size start fuel notes cs).2 = notes ++ more := by
  induction fuel generalizing notes cs with
  | zero => exact ⟨[], (List.append_nil _).symm⟩
  | succ fuel ih =>
    unfold scanString
    split
    · exact ⟨_, rfl⟩
    · split_ifs
      · exact ⟨_, rfl⟩
      · exact ⟨[], (List.append_nil _).symm⟩
      · obtain ⟨more, hmore⟩ := ih _ _
        exact ⟨_, hmore.trans (List.append_assoc ..)⟩
      · exact ih _ _

/-- A string about which there is nothing to say goes on to a quote, and can be unquoted. -/
theorem exists_of_scanString {size start fuel : Nat} {cs after : List Cell}
    (hfuel : cs.length < fuel) (h : scanString size start fuel [] cs = (after, [])) :
    ∃ (body : List Cell) (quote : Cell), cs = body ++ quote :: after ∧ quote.char = '"' ∧
      Text.Unquotes (spelling body) := by
  induction fuel generalizing cs with
  | zero => cases hfuel
  | succ fuel ih =>
    match cs with
    | [] => cases h
    | c :: cs =>
      rw [scanString] at h
      split at h
      · cases h
      split at h
      · next hquote =>
        cases h
        exact ⟨[], c, rfl, eq_of_beq hquote, .nil⟩
      split at h
      · next hescape =>
        rcases hscan : scanEscape size '"' cs with ⟨rest, note⟩
        rw [hscan] at h
        dsimp only at h
        obtain ⟨more, hmore⟩ := scanString_notes size start fuel ([] ++ note.toList) rest
        rw [h] at hmore
        obtain rfl : note = none := by
          cases note with
          | none => rfl
          | some note => cases hmore
        obtain ⟨escape, rfl, hspelled⟩ := exists_of_scanEscape hscan
        have hfuel : rest.length < fuel := by
          simp only [List.length_cons, List.length_append] at hfuel
          omega
        obtain ⟨body, quote, rfl, hq, hbody⟩ := ih hfuel h
        refine ⟨c :: (escape ++ body), quote, by simp, hq, ?_⟩
        rw [spelling_cons, spelling_append, eq_of_beq hescape]
        exact hbody.escape hspelled
      · next hbreak hquote hescape =>
        obtain ⟨body, quote, rfl, hq, hbody⟩ := ih (Nat.lt_of_succ_lt_succ hfuel) h
        refine ⟨c :: body, quote, rfl, hq, ?_⟩
        rw [spelling_cons]
        refine hbody.append fun b hb => ⟨?_, ?_, ?_⟩
        · exact ne_of_mem_ofChar (by decide) (by simpa using hquote) hb
        · exact ne_of_mem_ofChar (by decide) (by simpa using hbreak) hb
        · exact ne_of_mem_ofChar (by decide) (by simpa using hescape) hb

/-- The spelling of a string in double quotes has a value. -/
theorem isSome_unquote?_of_scanString {size start fuel : Nat} {c : Cell} {cs after : List Cell}
    (hc : c.char = '"') (hfuel : cs.length < fuel)
    (h : scanString size start fuel [] cs = (after, [])) :
    (Text.unquote? (spelling ((c :: cs).take ((c :: cs).length - after.length)))).isSome := by
  obtain ⟨body, quote, rfl, hq, hbody⟩ := exists_of_scanString hfuel h
  have htake : (c :: (body ++ quote :: after)).take
      ((c :: (body ++ quote :: after)).length - after.length) = c :: (body ++ [quote]) := by
    have hsplit : c :: (body ++ quote :: after) = (c :: (body ++ [quote])) ++ after := by simp
    rw [hsplit, List.length_append, Nat.add_sub_cancel, List.take_left]
  rw [htake, spelling_cons, spelling_append, hc, spelling_cons, spelling_nil, hq, List.append_nil]
  exact Text.isSome_unquote?_quoted hbody

/-- The spelling of a raw string, which leaves out carriage returns, has a value. -/
theorem isSome_unquote?_of_raw {c : Cell} {rest body after : List Cell} (hc : c.char = Char.ofNat 0x60)
    (hspan : rest.span (fun c => c.char != Char.ofNat 0x60) = (body, after)) (hafter : after ≠ []) :
    (Text.unquote? (spelling ((c :: body ++ after.take 1).filter fun c => c.char != '\r'))).isSome := by
  rw [List.span_eq_takeWhile_dropWhile, Prod.mk.injEq] at hspan
  obtain ⟨rfl, rfl⟩ := hspan
  obtain ⟨quote, after, hquote⟩ := List.exists_cons_of_ne_nil hafter
  have hq : quote.char = Char.ofNat 0x60 := by
    have hhead := List.head_dropWhile_not (fun c : Cell => c.char != Char.ofNat 0x60) hafter
    simpa [hquote] using hhead
  rw [hquote]
  have hkept {d : Cell} (hd : d.char = Char.ofNat 0x60) : (d.char != '\r') = true := by
    rw [hd]
    decide
  have hwritten (cs : List Cell) :
      (c :: cs ++ (quote :: after).take 1).filter (fun c => c.char != '\r') =
        c :: (cs.filter (fun c => c.char != '\r') ++ [quote]) := by
    simp [List.filter_append, hkept hc, hkept hq]
  rw [hwritten, spelling_cons, spelling_append, hc, spelling_cons, spelling_nil, hq, List.append_nil]
  refine Text.isSome_unquote?_raw fun hmem => ?_
  obtain ⟨d, hd, hb⟩ := exists_of_mem_spelling hmem
  have hne : d.char ≠ Char.ofNat 0x60 := by
    have hinside := List.mem_takeWhile_imp (List.mem_of_mem_filter hd)
    simpa using hinside
  exact ne_of_mem_ofChar (by decide) hne hb rfl

end Go

end LiteralAudit
