import LiteralAudit.Proofs.Literal.Go.ScannedStrings
import LiteralAudit.Proofs.Literal.Go.Statements

/-!
# What is scanned

A step of the scanner is one of a few **moves** (`Scanner.move_next`). Each comes to the end of the file
or leaves less to be scanned: fewer cells, a pending line break fewer, or a place fewer where a line break
counts (`Scanner.advances_next`). So the steps that `scan` allows suffice, and the end of the file is the
last token and no other (`scan_endsInEof`). A string token about which nothing is noted has a value
(`isSome_unquote?_of_scan`).
-/

namespace LiteralAudit.Go

/-! ## Digits and prefixes -/

theorem length_span_lt {p : Cell → Bool} {c : Cell} (cs : List Cell) (hc : p c = true) :
    ((c :: cs).span p).2.length < (c :: cs).length := by
  rw [List.span_eq_takeWhile_dropWhile]
  dsimp only
  rw [List.dropWhile_cons, if_pos hc]
  exact Nat.lt_succ_of_le (List.dropWhile_sublist _).length_le

theorem length_digitSpan_lt (hex : Bool) {c : Cell} (cs : List Cell) (hc : isDecimal c.char) :
    (digitSpan hex (c :: cs)).2.length < (c :: cs).length := by
  have hdigit : (c.char == '_' || (if hex then isHex c.char else isDecimal c.char)) = true := by
    cases hex
    · simp [hc]
    · have hhex : isHex c.char = true := by
        rw [isDecimal] at hc
        simp [isHex, hc]
      simp [hhex]
  exact length_span_lt cs hdigit

theorem digitSpan_append (hex : Bool) (cs : List Cell) :
    (digitSpan hex cs).1 ++ (digitSpan hex cs).2 = cs := by
  unfold digitSpan
  rw [List.span_eq_takeWhile_dropWhile]
  exact List.takeWhile_append_dropWhile

theorem numberPrefix_append (cs : List Cell) :
    (numberPrefix cs).2.2.1 ++ (numberPrefix cs).2.2.2 = cs := by
  unfold numberPrefix
  split
  · split
    · extract_lets l
      split_ifs <;> rfl
    · rfl
  · split_ifs <;> rfl
  · rfl

theorem numberPrefix_dot {c : Cell} (cs : List Cell) (hc : c.char = '.') :
    numberPrefix (c :: cs) = (none, 10, [], c :: cs) := by
  cases cs <;> simp [numberPrefix, hc]

/-! ## The parts of a number -/

/-- The digits before the dot, of which a number that starts with the dot has none. They stand behind the
prefix. -/
def wholePart (hex : Bool) (cs behind : List Cell) : List Cell × List Cell :=
  if cs.head?.any (·.char == '.') then ([], cs) else digitSpan hex behind

/-- The dot and the digits behind it. -/
def fractionPart (hex : Bool) (cs : List Cell) : List Cell × List Cell :=
  if cs.head?.any (·.char == '.') then
    (cs.take 1 ++ (digitSpan hex (cs.drop 1)).1, (digitSpan hex (cs.drop 1)).2)
  else ([], cs)

/-- The sign and the digits behind the mark of an exponent. -/
def signedDigits (cs : List Cell) : List Cell × List Cell :=
  let signs := cs.span fun c => c.char == '+' || c.char == '-'
  let digits := digitSpan false (signs.1.drop 1 ++ signs.2)
  (signs.1.take 1 ++ digits.1, digits.2)

/-- The prefix and the digits before the dot are taken from the front. They are nothing only where the
number starts with its dot. -/
theorem wholePart_spec {c : Cell} {cs lead behind : List Cell} {letter : Option Char} {base : Nat}
    (hlead : numberPrefix (c :: cs) = (letter, base, lead, behind))
    (hc : isDecimal c.char ∨ c.char = '.') :
    lead ++ (wholePart (base == 16) (c :: cs) behind).1 ++ (wholePart (base == 16) (c :: cs) behind).2 =
        c :: cs ∧
      ((wholePart (base == 16) (c :: cs) behind).2.length < (c :: cs).length ∨
        c.char = '.' ∧ (wholePart (base == 16) (c :: cs) behind).2 = c :: cs) := by
  unfold wholePart
  split
  · next hpoint =>
    have hdot : c.char = '.' := by simpa using hpoint
    rw [numberPrefix_dot cs hdot] at hlead
    cases hlead
    exact ⟨rfl, .inr ⟨hdot, rfl⟩⟩
  · next hpoint =>
    have hdecimal : isDecimal c.char := hc.resolve_right fun hc => hpoint (by simp [hc])
    have hspan := digitSpan_append (base == 16) behind
    have happend : lead ++ behind = c :: cs := by
      have happend := numberPrefix_append (c :: cs)
      rwa [hlead] at happend
    refine ⟨by rw [List.append_assoc, hspan, happend], .inl ?_⟩
    cases lead with
    | nil =>
      obtain rfl : behind = c :: cs := happend
      exact length_digitSpan_lt (base == 16) cs hdecimal
    | cons l lead =>
      have hlength := congrArg List.length happend
      have hparts := congrArg List.length hspan
      simp only [List.length_append, List.length_cons] at hlength hparts ⊢
      omega

theorem fractionPart_append (hex : Bool) (cs : List Cell) :
    (fractionPart hex cs).1 ++ (fractionPart hex cs).2 = cs := by
  unfold fractionPart
  split
  · rw [List.append_assoc, digitSpan_append, List.take_append_drop]
  · rfl

theorem length_fractionPart_lt (hex : Bool) {c : Cell} (cs : List Cell) (hc : c.char = '.') :
    (fractionPart hex (c :: cs)).2.length < (c :: cs).length := by
  have hhead : ((c :: cs).head?.any (·.char == '.')) = true := by simp [hc]
  rw [fractionPart, if_pos hhead]
  have hlength := congrArg List.length (digitSpan_append hex cs)
  rw [List.length_append] at hlength
  show (digitSpan hex cs).2.length < cs.length + 1
  omega

theorem signedDigits_append (cs : List Cell) : (signedDigits cs).1 ++ (signedDigits cs).2 = cs := by
  unfold signedDigits
  dsimp only
  rw [List.append_assoc, digitSpan_append, ← List.append_assoc, List.take_append_drop,
    List.span_eq_takeWhile_dropWhile]
  exact List.takeWhile_append_dropWhile

/-- A number is one by its kind, and takes cells from the front, at least one. -/
theorem scanNumber_spec (size : Nat) {c : Cell} (cs : List Cell)
    (hc : isDecimal c.char ∨ c.char = '.') :
    (scanNumber size (c :: cs)).1 ∈ [Tok.int, .float, .imag] ∧
      (scanNumber size (c :: cs)).2.1 ++ (scanNumber size (c :: cs)).2.2.1 = c :: cs ∧
      (scanNumber size (c :: cs)).2.2.1.length < (c :: cs).length := by
  unfold scanNumber
  extract_lets start isDigit fractional
  split
  next letter base lead behind hlead =>
  split
  next whole rest₁ hwhole =>
  replace hwhole : wholePart (base == 16) (c :: cs) behind = (whole, rest₁) := hwhole
  have hrest₁ := wholePart_spec hlead hc
  rw [hwhole] at hrest₁
  obtain ⟨happend₁, hshort₁⟩ := hrest₁
  extract_lets point
  split
  next fraction rest₂ hfraction =>
  replace hfraction : fractionPart (base == 16) rest₁ = (fraction, rest₂) := hfraction
  have happend₂ : fraction ++ rest₂ = rest₁ := by
    have happend := fractionPart_append (base == 16) rest₁
    rwa [hfraction] at happend
  have hshort₂ : rest₂.length < (c :: cs).length := by
    rcases hshort₁ with hshort | ⟨hdot, rfl⟩
    · rw [← happend₂, List.length_append] at hshort
      omega
    · have hlt := length_fractionPart_lt (base == 16) cs hdot
      rwa [hfraction] at hlt
  extract_lets digits hasDigits radixNotes digitNotes mark?
  have hmark : ∀ mark, mark? = some mark → rest₂.head? = some mark :=
    fun mark hmark => (Option.filter_eq_some_iff.1 hmark).1
  clear_value mark?
  split
  next exponent rest₃ exponentNotes hexponent =>
  have happend₃ : exponent ++ rest₃ = rest₂ := by
    split at hexponent
    · next mark =>
      obtain ⟨rest', rfl⟩ := List.head?_eq_some_iff.1 (hmark mark rfl)
      have hfront : mark :: (signedDigits rest').1 = exponent := congrArg Prod.fst hexponent
      have hafter : (signedDigits rest').2 = rest₃ := congrArg (fun r => r.2.1) hexponent
      rw [← hfront, ← hafter, List.cons_append, signedDigits_append]
    · cases hexponent
      rfl
  extract_lets imaginary tok invalidNotes
  split
  next suffix rest₄ hsuffix =>
  have happend₄ : suffix ++ rest₄ = rest₃ := by
    split at hsuffix <;> cases hsuffix
    · exact List.take_append_drop ..
    · rfl
  extract_lets written separatorNotes
  refine ⟨?_, ?_, ?_⟩
  · show tok ∈ _
    unfold tok
    split_ifs <;> simp
  · show lead ++ whole ++ fraction ++ exponent ++ suffix ++ rest₄ = c :: cs
    rw [List.append_assoc _ suffix, happend₄, List.append_assoc _ exponent, happend₃,
      List.append_assoc _ fraction, happend₂, happend₁]
  · show rest₄.length < _
    rw [← happend₃, ← happend₄, List.length_append, List.length_append] at hshort₂
    omega

/-! ## What is left behind escapes and comments -/

/-- Escapes leave a part of what they find, also where something is wrong with them. -/
theorem escapeDigits_suffix (size base count n : Nat) (cs : List Cell) :
    (match escapeDigits size base count n cs with
      | .error (rest, _) => rest
      | .ok (_, rest) => rest) <:+ cs := by
  induction count generalizing n cs with
  | zero => exact List.suffix_rfl
  | succ count ih =>
    cases cs with
    | nil => exact List.suffix_rfl
    | cons c cs =>
      unfold escapeDigits
      extract_lets digit
      split_ifs
      · exact (ih ..).trans (List.suffix_cons ..)
      · exact List.suffix_rfl

theorem scanEscape_suffix (size : Nat) (quote : Char) (cs : List Cell) :
    (scanEscape size quote cs).1 <:+ cs := by
  unfold scanEscape
  extract_lets numeric
  have hnumeric (count base most : Nat) (from_ : List Cell) :
      (numeric count base most from_).1 <:+ from_ := by
    have hsuffix := escapeDigits_suffix size base count 0 from_
    unfold numeric
    split
    · next hdigits =>
      rwa [hdigits] at hsuffix
    · next hdigits =>
      rw [hdigits] at hsuffix
      split_ifs <;> exact hsuffix
  cases cs with
  | nil => exact List.suffix_rfl
  | cons c cs =>
    dsimp only
    split_ifs
    · exact List.suffix_cons ..
    · exact hnumeric ..
    · exact (hnumeric ..).trans (List.suffix_cons ..)
    · exact (hnumeric ..).trans (List.suffix_cons ..)
    · exact (hnumeric ..).trans (List.suffix_cons ..)
    · exact List.suffix_rfl

theorem scanString_suffix (size start fuel : Nat) (notes : List Note) (cs : List Cell) :
    (scanString size start fuel notes cs).1 <:+ cs := by
  induction fuel generalizing notes cs with
  | zero => exact List.suffix_rfl
  | succ fuel ih =>
    cases cs with
    | nil => exact List.suffix_rfl
    | cons c cs =>
      unfold scanString
      dsimp only
      split_ifs
      · exact List.suffix_rfl
      · exact List.suffix_cons ..
      · exact (ih _ _).trans ((scanEscape_suffix ..).trans (List.suffix_cons ..))
      · exact (ih _ _).trans (List.suffix_cons ..)

theorem scanChar_suffix (size start fuel count : Nat) (valid : Bool) (notes : List Note)
    (cs : List Cell) : (scanChar size start fuel count valid notes cs).1 <:+ cs := by
  induction fuel generalizing count valid notes cs with
  | zero => exact List.suffix_rfl
  | succ fuel ih =>
    cases cs with
    | nil => exact List.suffix_rfl
    | cons c cs =>
      unfold scanChar
      dsimp only
      split
      · exact List.suffix_rfl
      split
      · exact List.suffix_cons ..
      split
      · exact (ih ..).trans ((scanEscape_suffix ..).trans (List.suffix_cons ..))
      · exact (ih ..).trans (List.suffix_cons ..)

theorem blockComment?_append {done cs body after : List Cell}
    (h : blockComment? done cs = some (body, after)) : body ++ after = done.reverse ++ cs := by
  fun_induction blockComment? with
  | case1 done a b rest hend =>
    cases h
    simp
  | case2 done a b rest hend ih =>
    rw [ih h, List.reverse_cons, List.append_assoc]
    rfl
  | case3 => cases h

theorem length_operator?_pos {cs : List Cell} {op : String} (h : operator? cs = some op) :
    0 < op.length := by
  have hpos : ∀ op ∈ operators, 0 < op.length := by decide
  unfold operator? at h
  exact hpos op (List.mem_of_find?_eq_some h)

/-- A comment changes what directives were met, and leaves what is behind it. -/
theorem afterComment_eq (s : Scanner) (startsLine : Bool) (comment rest : List Cell) :
    (s.afterComment startsLine comment rest).1 =
      { s with
        cells := rest
        directives := (s.afterComment startsLine comment rest).1.directives } := by
  unfold Scanner.afterComment
  extract_lets
  split
  · split
    · rfl
    · rfl
    · dsimp only
      split_ifs <;> rfl
  · rfl

/-- What is behind a literal in quotes is what is left when the cells of the literal are taken. -/
theorem take_append_of_suffix {c : Cell} {cs after : List Cell} (h : after <:+ cs) :
    (c :: cs).take ((c :: cs).length - after.length) ++ after = c :: cs ∧
      (c :: cs).take ((c :: cs).length - after.length) ≠ [] := by
  have happend := List.suffix_iff_eq_append.1 (h.trans (List.suffix_cons c cs))
  refine ⟨happend, fun hnil => ?_⟩
  rw [hnil, List.nil_append] at happend
  have hlength := h.length_le
  rw [happend] at hlength
  exact Nat.not_succ_le_self _ hlength

/-! ## One step -/

/-- A literal is written by some cells, before others. A raw string leaves out its carriage returns. -/
structure Token.Spells (t : Token) (size : Nat) (written rest : List Cell) : Prop where
  start : t.start = offsetOf size (written ++ rest)
  stop : t.stop = offsetOf size rest
  nonempty : written ≠ []
  text : t.text = spelling written ∨
    written.head?.map (·.char) = some (Char.ofNat 0x60) ∧
      t.text = spelling (written.filter fun c => c.char != '\r')

/-- A token that is read off some cells, before others: cells that write it if it is a literal, and a value
if it is a string about which nothing is noted. -/
structure Token.ReadOff (t : Token) (size : Nat) (written rest : List Cell) (notes : List Note) : Prop where
  ne_eof : t.tok ≠ .eof
  spells : t.tok.isValue = true → t.Spells size written rest
  valued : t.tok = .string → notes = [] → (Text.unquote? t.text).isSome

theorem Token.ReadOff.plain {t : Token} {size : Nat} {written rest : List Cell} {notes : List Note}
    (heof : t.tok ≠ .eof) (hvalue : t.tok.isValue = false) : t.ReadOff size written rest notes where
  ne_eof := heof
  spells h := absurd h (by simp [hvalue])
  valued h := by simp [h, Tok.isValue] at hvalue

/-- A literal that is spelled as it is written. -/
theorem Token.Spells.exact {size start : Nat} {tok : Tok} {written rest whole : List Cell}
    (happend : written ++ rest = whole) (hstart : start = offsetOf size whole) (hne : written ≠ []) :
    Token.Spells ⟨tok, spelling written, start, offsetOf size rest, []⟩ size written rest :=
  ⟨hstart.trans (congrArg (offsetOf size) happend.symm), rfl, hne, .inl rfl⟩

theorem readOff_number (size : Nat) {c : Cell} (cs : List Cell) (hc : isDecimal c.char ∨ c.char = '.') :
    (scanNumber size (c :: cs)).2.1 ≠ [] ∧
      Token.ReadOff ⟨(scanNumber size (c :: cs)).1, spelling (scanNumber size (c :: cs)).2.1,
          offsetOf size (c :: cs), offsetOf size (scanNumber size (c :: cs)).2.2.1, []⟩ size
        (scanNumber size (c :: cs)).2.1 (scanNumber size (c :: cs)).2.2.1
        (scanNumber size (c :: cs)).2.2.2 := by
  obtain ⟨htok, happend, hlength⟩ := scanNumber_spec size cs hc
  have hne : (scanNumber size (c :: cs)).2.1 ≠ [] := fun hnil => by
    rw [hnil, List.nil_append] at happend
    exact hlength.ne (congrArg List.length happend)
  refine ⟨hne, ?_, fun _ => .exact happend rfl hne, ?_⟩
  all_goals
    dsimp only
    generalize (scanNumber size (c :: cs)).1 = tok at htok
    rintro rfl
    simp at htok

theorem exists_of_slash {c : Cell} {rest : List Cell} {x : Char}
    (h : (c.char == '/' && rest.head?.any (·.char == x)) = true) :
    c.char = '/' ∧ ∃ second more, rest = second :: more ∧ second.char = x := by
  obtain ⟨hfirst, hsecond⟩ := Bool.and_eq_true_iff.1 h
  obtain ⟨second, hhead, hsecond⟩ := (Option.any_eq_true _ _).1 hsecond
  obtain ⟨more, rfl⟩ := List.head?_eq_some_iff.1 hhead
  exact ⟨eq_of_beq hfirst, second, more, rfl, eq_of_beq hsecond⟩

/-- What a step of the scanner may return: a line break that counts as a semicolon but is no cell, the end
of the file, or what it makes of the cells that follow the blanks. -/
inductive Scanner.Move (s : Scanner) : Option Token × Scanner × List Note → Prop
  | pendingBreak {offset : Nat} (pending : s.pendingBreak = some offset) :
      Move s (some ⟨.op ";", "\n", offset, offset, []⟩, { s with pendingBreak := none }, [])
  | lastBreak {start : Nat} (pending : s.pendingBreak = none) (semi : s.insertSemi = true) :
      Move s (some ⟨.op ";", "\n", start, start, []⟩, { s with cells := [], insertSemi := false }, [])
  | eof {t : Token} (tok : t.tok = .eof) (stop : t.stop = s.size) :
      Move s (some t, { s with cells := [] }, [])
  | token {t : Token} {blanks written rest : List Cell} {semi : Bool} {notes : List Note}
      (pending : s.pendingBreak = none) (split : s.cells = blanks ++ written ++ rest)
      (nonempty : written ≠ []) (read : t.ReadOff s.size written rest notes) :
      Move s (some t, { s with cells := rest, insertSemi := semi }, notes)
  | comment {blanks more rest : List Cell} {first second : Cell} {startsLine semi : Bool}
      {break? : Option Nat} {notes : List Note}
      (split : s.cells = blanks ++ (first :: second :: more) ++ rest)
      (slash : first.char = '/') (opening : second.char = '/' ∨ second.char = '*')
      (breaks : semi = false ∨ break? = none) :
      Move s (none, { s with
        cells := rest
        insertSemi := semi
        pendingBreak := break?
        directives := (s.afterComment startsLine (first :: second :: more) rest).1.directives }, notes)
  | openComment {notes : List Note} (pending : s.pendingBreak = none) (nonempty : s.cells ≠ []) :
      Move s (none, { s with cells := [] }, notes)

theorem Scanner.Move.ite {s : Scanner} {c : Prop} [Decidable c]
    {r r' : Option Token × Scanner × List Note} (hr : c → s.Move r) (hr' : ¬c → s.Move r') :
    s.Move (if c then r else r') := by
  split_ifs with h
  · exact hr h
  · exact hr' h

theorem Scanner.move_next (s : Scanner) : s.Move s.next := by
  unfold Scanner.next
  split
  · next hpending => exact .pendingBreak hpending
  · next hpending =>
    extract_lets blanks cs start token quoted startsLine
    have hcells : s.cells = blanks ++ cs := by
      have hblanks : blanks = s.cells.take blanks.length :=
        List.prefix_iff_eq_take.1 (List.takeWhile_prefix _)
      exact (List.take_append_drop blanks.length s.cells).symm.trans (congrArg (· ++ cs) hblanks.symm)
    clear_value blanks cs
    cases cs with
    | nil =>
      dsimp only
      split
      · next hsemi => exact .lastBreak hpending hsemi
      · exact .eof rfl rfl
    | cons c rest =>
      have hsplit {written after : List Cell} (happend : written ++ after = c :: rest) :
          s.cells = blanks ++ written ++ after := by
        rw [List.append_assoc, happend, hcells]
      have hfirst : s.cells = blanks ++ [c] ++ rest := hsplit rfl
      dsimp -zeta only
      refine .ite (fun _ => ?_) fun _ => ?_
      · exact .token hpending hfirst (by simp) (.plain nofun rfl)
      refine .ite (fun hletter => ?_) fun _ => ?_
      · have happend := List.takeWhile_append_dropWhile (l := c :: rest)
          (p := fun c => isLetter c.char || Unicode.isDecimalDigit c.char)
        have hne : (c :: rest).takeWhile (fun c => isLetter c.char || Unicode.isDecimalDigit c.char) ≠
            [] := by
          simp [hletter]
        rw [List.span_eq_takeWhile_dropWhile]
        refine .ite (fun _ => ?_) fun _ => ?_
        · exact .token hpending (hsplit happend) hne (.plain nofun rfl)
        · exact .token hpending (hsplit happend) hne (.plain nofun rfl)
      refine .ite (fun hnumber => ?_) fun _ => ?_
      · have hstarts : isDecimal c.char ∨ c.char = '.' := by
          simp only [Bool.or_eq_true, Bool.and_eq_true, beq_iff_eq] at hnumber
          exact hnumber.imp_right And.left
        obtain ⟨hne, hread⟩ := readOff_number s.size rest hstarts
        exact .token hpending (hsplit (scanNumber_spec s.size rest hstarts).2.1) hne hread
      refine .ite (fun hquote => ?_) fun _ => ?_
      · have hafter := scanString_suffix s.size start ((c :: rest).length + 1) [] rest
        obtain ⟨happend, hne⟩ := take_append_of_suffix (c := c) hafter
        refine .token hpending (hsplit happend) hne
          ⟨nofun, fun _ => .exact happend rfl hne, fun _ hnotes => ?_⟩
        exact isSome_unquote?_of_scanString (by simpa using hquote) (by simp) (Prod.ext rfl hnotes)
      refine .ite (fun _ => ?_) fun _ => ?_
      · have hafter := scanChar_suffix s.size start ((c :: rest).length + 1) 0 true [] rest
        obtain ⟨happend, hne⟩ := take_append_of_suffix (c := c) hafter
        exact .token hpending (hsplit happend) hne (.plain nofun rfl)
      refine .ite (fun hraw => ?_) fun _ => ?_
      · extract_lets notes written
        have happend : (c :: (rest.span fun c => c.char != Char.ofNat 0x60).1 ++
            (rest.span fun c => c.char != Char.ofNat 0x60).2.take 1) ++
            (rest.span fun c => c.char != Char.ofNat 0x60).2.drop 1 = c :: rest := by
          rw [List.append_assoc, List.take_append_drop, List.span_eq_takeWhile_dropWhile, List.cons_append,
            List.takeWhile_append_dropWhile]
        refine .token hpending (hsplit happend) (by simp) ⟨nofun, fun _ => ?_, fun _ hnotes => ?_⟩
        · exact ⟨congrArg (offsetOf s.size) happend.symm, rfl, by simp,
            .inr ⟨congrArg some (eq_of_beq hraw), rfl⟩⟩
        · refine isSome_unquote?_of_raw (by simpa using hraw) rfl fun hnil => ?_
          simp only [notes, hnil, List.isEmpty_nil, if_true] at hnotes
          cases hnotes
      refine .ite (fun hopens => ?_) fun _ => ?_
      · obtain ⟨hslash, second, more, rfl, hsecond⟩ := exists_of_slash hopens
        have hspan : (c :: second :: more).span (fun c => c.char != '\n') =
            (c :: second :: more.takeWhile (fun c => c.char != '\n'),
              more.dropWhile fun c => c.char != '\n') := by
          simp [List.span_eq_takeWhile_dropWhile, hslash, hsecond]
        rw [hspan]
        have happend : (c :: second :: more.takeWhile fun c => c.char != '\n') ++
            (more.dropWhile fun c => c.char != '\n') = c :: second :: more := by
          rw [List.cons_append, List.cons_append, List.takeWhile_append_dropWhile]
        dsimp only
        rw [afterComment_eq]
        exact .comment (hsplit happend) hslash (.inl hsecond) (.inr hpending)
      refine .ite (fun hopens => ?_) fun _ => ?_
      · split
        · exact .openComment hpending (by simp [hcells])
        · next body after hblock =>
          extract_lets break? ends
          obtain ⟨hslash, second, more, rfl, hsecond⟩ := exists_of_slash hopens
          have happend : c :: second :: body ++ after = c :: second :: more := by
            rw [List.cons_append, List.cons_append, blockComment?_append hblock]
            rfl
          rw [afterComment_eq]
          refine .comment (hsplit happend) hslash (.inr hsecond) ?_
          cases ends
          · exact .inr rfl
          · exact .inl (Bool.and_false _)
      · split
        · next op hop =>
          have hne : (c :: rest).take op.length ≠ [] := by
            simp [(length_operator?_pos hop).ne']
          exact .token hpending (hsplit (List.take_append_drop ..)) hne (.plain nofun rfl)
        · exact .token hpending hfirst (by simp) (.plain nofun rfl)

/-- What is left to be scanned: cells, places where a line break counts, and a line break to come. -/
def Scanner.measure (s : Scanner) : Nat :=
  2 * s.cells.length + (if s.insertSemi then 1 else 0) + if s.pendingBreak.isSome then 1 else 0

theorem Scanner.measure_lt {s s' : Scanner} (hcells : s'.cells.length < s.cells.length)
    (hbreak : s'.insertSemi = false ∨ s'.pendingBreak = none) : s'.measure < s.measure := by
  -- Two fewer for a cell, and at most one more for a line break.
  have hmore : (if s'.insertSemi then 1 else 0) + (if s'.pendingBreak.isSome then 1 else 0) ≤ 1 := by
    rcases hbreak with hbreak | hbreak
    · rw [hbreak]
      cases s'.pendingBreak.isSome <;> decide
    · rw [hbreak]
      cases s'.insertSemi <;> decide
  unfold Scanner.measure
  omega

/-- A step comes to the end of the file, or leaves less to be scanned, and a string about which it notes
nothing has a value. -/
def Scanner.Advances (s : Scanner) (r : Option Token × Scanner × List Note) : Prop :=
  (∃ t, r.1 = some t ∧ t.tok = .eof ∧ t.stop = s.size) ∨
    (r.2.1.measure < s.measure ∧
      ∀ t, r.1 = some t → t.tok ≠ .eof ∧
        (t.tok = .string → r.2.2 = [] → (Text.unquote? t.text).isSome))

theorem Scanner.advances_next (s : Scanner) : s.Advances s.next := by
  have hmove := s.move_next
  generalize s.next = r at hmove
  cases hmove with
  | pendingBreak hpending =>
    refine .inr ⟨by simp [measure, hpending], ?_⟩
    rintro t ⟨⟩
    exact ⟨nofun, nofun⟩
  | lastBreak hpending hsemi =>
    refine .inr ⟨?_, ?_⟩
    · simp [measure, hpending, hsemi]
    · rintro t ⟨⟩
      exact ⟨nofun, nofun⟩
  | eof htok hstop => exact .inl ⟨_, rfl, htok, hstop⟩
  | @token t blanks written rest semi notes hpending hsplit hne hread =>
    have hlt : rest.length < s.cells.length := by
      have hpos := List.length_pos_iff.2 hne
      rw [hsplit, List.length_append, List.length_append]
      omega
    refine .inr ⟨measure_lt hlt (.inr hpending), ?_⟩
    rintro _ ⟨⟩
    exact ⟨hread.ne_eof, hread.valued⟩
  | @comment blanks more rest _ _ _ _ _ _ hsplit _ _ hbreaks =>
    have hlt : rest.length < s.cells.length := by
      rw [hsplit]
      simp only [List.length_append, List.length_cons]
      omega
    exact .inr ⟨measure_lt hlt hbreaks, nofun⟩
  | openComment hpending hne =>
    exact .inr ⟨measure_lt (List.length_pos_iff.2 hne) (.inr hpending), nofun⟩

/-! ## A whole run -/

theorem EndsInEof.cons {t : Token} {ts : List Token} (ht : t.tok ≠ .eof) (hts : EndsInEof ts) :
    EndsInEof (t :: ts) := by
  cases ts with
  | nil => exact hts.elim
  | cons u us => exact ⟨ht, hts⟩

/-- Enough steps come to the end of the file, where the run stops. -/
theorem Scanner.endsInEof_run {fuel : Nat} {bad notes : List Note} {s : Scanner}
    (hfuel : s.measure < fuel) : EndsInEof (s.run fuel bad notes).1 := by
  induction fuel generalizing bad notes s with
  | zero => cases hfuel
  | succ fuel ih =>
    have hadvances := s.advances_next
    unfold Scanner.run
    rcases hnext : s.next with ⟨token?, s', more⟩
    rw [hnext] at hadvances
    rcases hadvances with ⟨t, rfl, htok, -⟩ | ⟨hlt, htoken⟩
    · simp [htok, EndsInEof]
    have hrest : s'.measure < fuel := by
      dsimp only at hlt
      omega
    cases token? with
    | none => exact ih hrest
    | some t =>
      dsimp only
      rw [if_neg (by simpa using (htoken t rfl).1)]
      exact (ih hrest).cons (htoken t rfl).1

/-- A string about which nothing is noted has a value. -/
theorem Scanner.isSome_unquote?_of_run {fuel : Nat} {bad notes : List Note} {s : Scanner} {t : Token}
    (ht : t ∈ (s.run fuel bad notes).1) (hnotes : t.notes = []) (htok : t.tok = .string) :
    (Text.unquote? t.text).isSome := by
  induction fuel generalizing bad notes s with
  | zero => cases ht
  | succ fuel ih =>
    have hadvances := s.advances_next
    unfold Scanner.run at ht
    rcases hnext : s.next with ⟨token?, s', more⟩
    rw [hnext] at hadvances ht
    cases token? with
    | none => exact ih ht
    | some u =>
      dsimp only at ht
      have hfirst : t = { u with notes := bad.takeWhile (·.offset ≤ u.stop) ++ (notes ++ more) } →
          (Text.unquote? t.text).isSome := by
        rintro rfl
        rcases hadvances with ⟨v, hv, heof, -⟩ | ⟨-, htoken⟩
        · cases hv
          cases heof.symm.trans htok
        · exact (htoken u rfl).2 htok (List.append_eq_nil_iff.mp (List.append_eq_nil_iff.mp hnotes).2).2
      split at ht
      · exact hfirst (List.mem_singleton.mp ht)
      · exact (List.mem_cons.mp ht).elim hfirst ih

/-- A scan is a run over the cells of the source, a byte order mark in front apart. Of a source in pairs of
bytes, the mark alone is noted. -/
theorem exists_run_of_scan (file source : Text) :
    ∃ (s : Scanner) (bad : List Note) (fuel : Nat),
      scan file source = ((s.run fuel bad []).1,
        ⟨file, s.lineStarts, (s.run fuel bad []).2.directives.reverse⟩) ∧
      s.measure < fuel ∧ s.size = source.length ∧ s.directives = [] ∧
      ((∃ n : Note, n.offset = 0 ∧ bad = [n]) ∨
        bad = badCharactersFrom 0 source.runes ∧ s.cells <:+ cellsFrom 0 source.runes ∧
          s.lineStarts = lineStartsOf source.length (cellsFrom 0 source.runes)) := by
  unfold scan
  extract_lets paired runes bad cells starts body
  have hbody : body <:+ cells := by
    unfold body
    clear_value cells
    split
    · split_ifs
      · exact List.suffix_cons ..
      · exact List.suffix_rfl
    · exact List.suffix_rfl
  refine ⟨{ file, size := source.length, cells := body, lineStarts := starts }, bad,
    2 * cells.length + 3, rfl, ?_, rfl, rfl, ?_⟩
  · have hlength := hbody.length_le
    simp [Scanner.measure]
    omega
  · cases hpaired : paired with
    | true => exact .inl ⟨_, rfl, if_pos hpaired⟩
    | false =>
      have hnot : ¬ paired = true := by simp [hpaired]
      have hrunes : runes = source.runes := if_neg hnot
      have hbad : bad = badCharactersFrom 0 runes := if_neg hnot
      refine .inr ⟨hrunes ▸ hbad, ?_, ?_⟩
      · rwa [← hrunes]
      · rw [← hrunes]

theorem scan_endsInEof (file source : Text) : EndsInEof (scan file source).1 := by
  obtain ⟨s, bad, fuel, hscan, hfuel, -⟩ := exists_run_of_scan file source
  rw [hscan]
  exact Scanner.endsInEof_run hfuel

theorem isSome_unquote?_of_scan {file source : Text} {t : Token} (ht : t ∈ (scan file source).1)
    (hnotes : t.notes = []) (htok : t.tok = .string) : (Text.unquote? t.text).isSome := by
  obtain ⟨s, bad, fuel, hscan, -⟩ := exists_run_of_scan file source
  rw [hscan] at ht
  exact Scanner.isSome_unquote?_of_run ht hnotes htok

end LiteralAudit.Go
