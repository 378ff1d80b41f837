import LiteralAudit.Proofs.Literal.Escapes
import LiteralAudit.Proofs.Literal.Python.Nesting
import LiteralAudit.Proofs.Number.Digits
import Mathlib

/-!
# Text in Python

The lexer works on bytes, but it cuts a source at ASCII characters only. So what is left of a source that
is valid UTF-8 stays valid, and so are names, numbers and what stands between the quotes of a string
(`Lexer.Textual`, `textual_step`). The value of a string is another matter: `text_of_literals` tells
which strings of a source **keep the text** between their quotes, and that a binding which is not valid
is the value of a string that does not.
-/

namespace LiteralAudit.Python

variable {lx next : Lexer} {b : UInt8} {rest : Text} {o : Opening}

/-! ## Strings of a source -/

/-- What stands between the quotes of a string, which is what it would be as a raw string. -/
def Opening.inner (o : Opening) : Text :=
  ((stringBody? true o.triple o.quote [] 0 o.body).map (·.1.reverse)).getD []

/-- A string in which no character is torn apart: it is a raw string, or it escapes ASCII characters
only. -/
def Opening.KeepsText (o : Opening) : Prop := o.raw = true ∨ o.inner.escapedBytes.IsAscii

/-- The strings of a source, in order. -/
def strings (source : Text) : List Opening := (states source).filterMap fun lx => opening? lx.rest

theorem lt_of_isQuote (h : isQuote b = true) : b.toNat < 0x80 := by
  rcases isQuote_iff.1 h with rfl | rfl <;> decide

/-- A string that is read keeps text that is valid exactly when it tears no character apart, and it is
followed by text that is valid. -/
theorem isUtf8_of_stringBody? {found : Text × Nat × Text} (hquote : isQuote o.quote = true)
    (h : stringBody? o.raw o.triple o.quote [] 0 o.body = some found) (hbody : o.body.isUtf8 = true) :
    (Text.isUtf8 found.1.reverse = true ↔ o.KeepsText) ∧ found.2.2.isUtf8 = true := by
  obtain ⟨inner, hsplit, hvalue, hraw⟩ := stringBody?_eq_some h
  have hinner : o.inner = inner := by simp [Opening.inner, hraw []]
  have hascii := lt_of_isQuote hquote
  have hclosing : ∃ more, closing o.triple o.quote = o.quote :: more ∧ Text.IsAscii more := by
    have hall (n : Nat) : Text.IsAscii (List.replicate n o.quote) := fun a ha =>
      List.eq_of_mem_replicate ha ▸ hascii
    cases o.triple with
    | false => exact ⟨[], rfl, hall 0⟩
    | true => exact ⟨_, rfl, hall 2⟩
  obtain ⟨more, hclosing, hmore⟩ := hclosing
  rw [hsplit, List.append_assoc, hclosing, List.cons_append, Text.isUtf8_append_ascii _ hascii,
    Bool.and_eq_true, Text.isUtf8_append hmore.isUtf8] at hbody
  refine ⟨?_, hbody.2⟩
  rw [hvalue, List.append_nil, List.reverse_reverse, Opening.KeepsText, hinner]
  cases o.raw with
  | true => exact iff_of_true hbody.1 (.inl rfl)
  | false =>
    refine (Text.isUtf8_replaceEscapes_iff isUtf8_meaning hbody.1).trans ?_
    exact (or_iff_right Bool.false_ne_true).symm

/-! ## Numbers -/

theorem continuesName_of_ge (h : 0x80 ≤ b.toNat) : continuesName b = true := by
  have hstart : startsName b = true := by
    rw [startsName, Bool.or_eq_true]
    exact .inr (decide_eq_true (UInt8.le_iff_toNat_le.2 h))
  rw [continuesName, hstart]
  rfl

/-- A number ends before an ASCII character, or with the source. -/
theorem numberSpan_eq (hex : Bool) (done t : Text) :
    ∃ front, t = front ++ (numberSpan hex done t).2 ∧ (numberSpan hex done t).1 = front.reverse ++ done ∧
      ∀ b ∈ (numberSpan hex done t).2.head?, b.toNat < 0x80 := by
  induction t generalizing done with
  | nil => exact ⟨[], rfl, rfl, nofun⟩
  | cons b rest ih =>
    obtain ⟨front, hrest, hdone, hnext⟩ := ih (b :: done)
    have hpassed : ∃ front, b :: rest = front ++ (numberSpan hex (b :: done) rest).2 ∧
        (numberSpan hex (b :: done) rest).1 = front.reverse ++ done ∧
        ∀ c ∈ (numberSpan hex (b :: done) rest).2.head?, c.toNat < 0x80 :=
      ⟨b :: front, congrArg (b :: ·) hrest, by rw [hdone]; simp, hnext⟩
    rw [numberSpan]
    split_ifs with hname hsign
    · exact hpassed
    · exact hpassed
    · refine ⟨[], rfl, rfl, ?_⟩
      rintro _ ⟨⟩
      rw [Bool.or_eq_true, not_or] at hname
      exact not_le.1 (mt continuesName_of_ge hname.1)

theorem isUtf8_numberValue {written : Text} (h : written.isUtf8 = true) :
    (numberValue written).isUtf8 = true := by
  unfold numberValue
  dsimp only
  split
  · exact (Text.isAscii_ofInt _).isUtf8
  · refine Text.isUtf8_filter (fun b hb => ?_) h
    rw [bne_iff_ne]
    rintro rfl
    exact absurd hb (by decide)

/-! ## Steps -/

/-- A binding is valid, or it is the value of a string among `ls`. -/
def Bound (ls : List Literal) (binding : Text) : Prop :=
  binding.isUtf8 = true ∨ ∃ l ∈ ls, l.numeric = false ∧ l.value = binding

/-- What the lexer has left is valid, and so are the latest names. The latest strings are values of
literals. -/
structure Lexer.Textual (lx : Lexer) : Prop where
  rest : lx.rest.isUtf8 = true
  names : ∀ t ∈ lx.recent, t.kind = .name → t.text.isUtf8 = true
  strings : ∀ t ∈ lx.recent, t.kind = .string → ∃ l ∈ lx.literals, l.numeric = false ∧ l.value = t.text

namespace Lexer.Textual

theorem leave (h : lx.Textual) (hrest : rest.isUtf8 = true) (line : Nat) (opened : List Bracket)
    (statement : List Token) :
    Textual ⟨rest, line, opened, lx.recent, statement, lx.literals⟩ :=
  ⟨hrest, h.names, h.strings⟩

theorem push (h : lx.Textual) {kind : Kind} {text : Text} (hname : kind = .name → text.isUtf8 = true)
    (hstring : kind ≠ .string) : (lx.push kind text).Textual := by
  refine ⟨h.rest, fun t ht hkind => ?_, fun t ht hkind => ?_⟩
  · rcases List.mem_cons.1 (List.mem_of_mem_take ht) with rfl | ht
    · exact hname hkind
    · exact h.names t ht hkind
  · rcases List.mem_cons.1 (List.mem_of_mem_take ht) with rfl | ht
    · exact absurd hkind hstring
    · exact h.strings t ht hkind

theorem literal (h : lx.Textual) (line : Nat) (numeric : Bool) (value : Text) :
    (lx.literal line numeric value).Textual := by
  refine ⟨h.rest, fun t ht hkind => ?_, fun t ht hkind => ?_⟩
  · rcases List.mem_cons.1 (List.mem_of_mem_take ht) with rfl | ht
    · cases numeric <;> cases hkind
    · exact h.names t ht hkind
  · rcases List.mem_cons.1 (List.mem_of_mem_take ht) with rfl | ht
    · cases numeric with
      | true => cases hkind
      | false => exact ⟨_, List.mem_cons_self, rfl, rfl⟩
    · obtain ⟨l, hl, hspec⟩ := h.strings t ht hkind
      exact ⟨l, List.mem_cons_of_mem _ hl, hspec⟩

/-- The literal that would be read next is bound to a name, to the value of a string, or to nothing. -/
theorem bound (h : lx.Textual) : Bound lx.literals lx.binding := by
  have hnone : Bound lx.literals [] := .inl rfl
  have hname {t : Token} (ht : t ∈ lx.recent) (hkind : t.kind = .name) : Bound lx.literals t.text :=
    .inl (h.names t ht hkind)
  unfold binding
  split
  · exact hnone
  · next last before hrecent =>
    rw [hrecent] at hname
    split
    · split
      · exact hnone
      · next name before' =>
        split
        · exact hnone
        · next hkind =>
          have hkind : name.kind = .name := by simpa using hkind
          split
          · next colon target more =>
            split
            · next htarget =>
              simp only [Bool.and_eq_true, beq_iff_eq] at htarget
              exact hname (by simp) htarget.1.2
            · exact hname (by simp) hkind
          · exact hname (by simp) hkind
    · split
      · split
        · next key before' =>
          split
          · next hkey =>
            simp only [Bool.and_eq_true, beq_iff_eq] at hkey
            exact .inr (h.strings key (by rw [hrecent]; simp) hkey.1)
          · exact hnone
        · exact hnone
      · exact hnone

end Lexer.Textual

/-- What a step reads where no text is torn apart but in strings: at most one literal, which is the string
or the number that starts there. -/
structure Reads (lx next : Lexer) : Prop where
  textual : next.Textual
  literals : match opening? lx.rest with
    | some o => ∃ l, next.literals = l :: lx.literals ∧ l.numeric = false ∧
        (l.value.isUtf8 = true ↔ o.KeepsText) ∧ Bound lx.literals l.binding
    | none => next.literals = lx.literals ∨ ∃ l, next.literals = l :: lx.literals ∧ l.numeric = true ∧
        l.value.isUtf8 = true ∧ Bound lx.literals l.binding

theorem Reads.nothing (hopening : opening? lx.rest = none) (htextual : next.Textual)
    (hliterals : next.literals = lx.literals) : Reads lx next := by
  refine ⟨htextual, ?_⟩
  rw [hopening]
  exact .inl hliterals

theorem isUtf8_of_opening? (h : opening? lx.rest = some o) (htextual : lx.Textual) :
    o.body.isUtf8 = true := by
  obtain ⟨hquote, front, hrest, -⟩ := opening?_spec h
  have hascii := lt_of_isQuote hquote
  have hwhole := htextual.rest
  rw [hrest, Text.isUtf8_append_ascii front hascii, Bool.and_eq_true] at hwhole
  rw [Opening.body]
  split
  · next htriple =>
    rw [← Text.isUtf8_cons_ascii hascii, ← Text.isUtf8_cons_ascii hascii, ← startsWith_quotes htriple]
    exact hwhole.2
  · exact hwhole.2

theorem reads_readOpening (htextual : lx.Textual) (hopening : opening? lx.rest = some o)
    (h : lx.readOpening o = .ok next) : Reads lx next := by
  obtain ⟨done, breaks, after, hbody, rfl⟩ := Lexer.exists_of_readOpening h
  obtain ⟨hkept, hafter⟩ := isUtf8_of_stringBody? (opening?_spec hopening).1 hbody
    (isUtf8_of_opening? hopening htextual)
  refine ⟨(htextual.leave hafter _ _ _).literal _ _ _, ?_⟩
  rw [hopening]
  exact ⟨_, rfl, rfl, hkept, htextual.bound⟩

/-- Only names start beyond ASCII. -/
theorem lt_of_head (h : head b rest ≠ .name) : b.toNat < 0x80 := by
  refine not_le.1 fun hle => h (head_eq_name_iff.2 ?_)
  rw [startsName, Bool.or_eq_true]
  exact .inr (decide_eq_true (UInt8.le_iff_toNat_le.2 hle))

theorem reads_of_move {k : Head} (htextual : lx.Textual) (hrest : lx.rest = b :: rest)
    (hopening : opening? lx.rest = none) (hhead : head b rest = k) (h : lx.Move b rest k next) :
    Reads lx next := by
  have hcut (hk : k ≠ .name) : rest.isUtf8 = true := by
    rw [← Text.isUtf8_cons_ascii (lt_of_head (hhead.trans_ne hk)), ← hrest]
    exact htextual.rest
  cases h with
  | lineEnd =>
    have hpassed := htextual.leave (hcut (by decide)) (lx.line + 1) lx.opened []
    exact .nothing hopening (hpassed.push nofun (by decide)) rfl
  | lineBreak | blank => exact .nothing hopening (htextual.leave (hcut (by decide)) _ _ _) rfl
  | comment =>
    have hbeyond (c : UInt8) (hc : 0x80 ≤ c.toNat) : (c != '\n') = true := by
      rw [bne_iff_ne]
      rintro rfl
      exact absurd hc (by decide)
    obtain ⟨-, hafter⟩ := Text.isUtf8_takeWhile_dropWhile hbeyond (hcut (by decide))
    exact .nothing hopening (htextual.leave hafter _ _ _) rfl
  | @continuation before after hsplit hcarriage =>
    have hascii : before.IsAscii := by
      rcases hcarriage with rfl | rfl
      · exact List.forall_mem_nil _
      · exact List.forall_mem_singleton.2 (by decide)
    have hafter := hcut (by decide)
    rw [hsplit, Text.isUtf8_append hascii.isUtf8, Text.isUtf8_cons_ascii (by decide)] at hafter
    exact .nothing hopening (htextual.leave hafter _ _ _) rfl
  | name =>
    obtain ⟨hname, hafter⟩ := Text.isUtf8_takeWhile_dropWhile (fun _ => continuesName_of_ge) htextual.rest
    exact .nothing hopening ((htextual.leave hafter _ _ _).push (fun _ => hname) (by decide)) rfl
  | number =>
    obtain ⟨written, hsplit, hdone, hnext⟩ := numberSpan_eq (isHex lx.rest) [] lx.rest
    obtain ⟨hwritten, hafter⟩ := Text.isUtf8_of_cut (hsplit ▸ htextual.rest) hnext
    rw [List.append_nil] at hdone
    refine ⟨(htextual.literal _ _ _).leave hafter _ _ _, ?_⟩
    rw [hopening]
    refine .inr ⟨_, rfl, rfl, ?_, htextual.bound⟩
    rw [hdone, List.reverse_reverse]
    exact isUtf8_numberValue hwritten
  | bracket | closingBracket =>
    exact .nothing hopening ((htextual.leave (hcut (by decide)) _ _ _).push nofun (by decide)) rfl
  | @op more after hsplit hlong =>
    have hascii : Text.IsAscii more := by
      have hall : ∀ op ∈ longOps, ∀ c ∈ op, c.toNat < 0x80 := by decide
      rcases hlong with rfl | hlong
      · exact List.forall_mem_nil _
      · exact fun c hc => hall _ hlong c (List.mem_cons_of_mem b hc)
    have hafter := hcut (by decide)
    rw [hsplit, Text.isUtf8_append hascii.isUtf8] at hafter
    exact .nothing hopening ((htextual.leave hafter _ _ _).push nofun (by decide)) rfl

theorem reads_step (htextual : lx.Textual) (hrest : lx.rest = b :: rest) (h : lx.step b rest = .ok next) :
    Reads lx next := by
  cases hopening : opening? lx.rest with
  | some o =>
    rw [step_eq_readOpening hrest hopening] at h
    exact reads_readOpening htextual hopening h
  | none => exact reads_of_move htextual hrest hopening rfl (move_of_step hrest hopening h)

/-! ## Runs -/

/-- What a run over valid text reads: its strings, each of which is kept or not, and numbers. -/
theorem textual_run {last : Lexer} {fuel : Nat} (htextual : lx.Textual) (h : lx.run fuel = .ok last) :
    ∃ found : List Literal, last.literals = found.reverse ++ lx.literals ∧
      List.Forall₂ (fun l o => l.value.isUtf8 = true ↔ o.KeepsText) (found.filter (!·.numeric))
        ((lx.states fuel).filterMap fun lx => opening? lx.rest) ∧
      ∀ l ∈ found, (l.numeric = true → l.value.isUtf8 = true) ∧ Bound last.literals l.binding := by
  induction fuel generalizing lx with
  | zero =>
    cases h
    exact ⟨[], rfl, .nil, List.forall_mem_nil _⟩
  | succ fuel ih =>
    cases hrest : lx.rest with
    | nil =>
      rw [Lexer.run_nil hrest] at h
      cases h
      rw [Lexer.states_nil hrest]
      exact ⟨[], rfl, .nil, List.forall_mem_nil _⟩
    | cons b rest =>
      rw [Lexer.run_cons hrest] at h
      cases hstep : lx.step b rest with
      | error e =>
        rw [hstep] at h
        cases h
      | ok next =>
        rw [hstep] at h
        obtain ⟨hnext, hread⟩ := reads_step htextual hrest hstep
        obtain ⟨found, hliterals, hstrings, hfound⟩ := ih hnext h
        rw [Lexer.states_of_ok hrest hstep]
        have hlater {l : Literal} (hl : next.literals = l :: lx.literals) :
            last.literals = (l :: found).reverse ++ lx.literals := by
          rw [hliterals, hl, List.reverse_cons, List.append_assoc]
          rfl
        have hbound {l : Literal} (hl : next.literals = l :: lx.literals) :
            Bound lx.literals l.binding → Bound last.literals l.binding := by
          refine Or.imp_right ?_
          rintro ⟨k, hk, hspec⟩
          exact ⟨k, by rw [hlater hl]; exact List.mem_append_right _ hk, hspec⟩
        cases hopening : opening? lx.rest with
        | some o =>
          rw [hopening] at hread
          obtain ⟨l, hl, hstring, hkept, hbinding⟩ := hread
          rw [List.filterMap_cons, hopening]
          refine ⟨l :: found, hlater hl, ?_, List.forall_mem_cons.2 ⟨⟨?_, hbound hl hbinding⟩, hfound⟩⟩
          · rw [List.filter_cons_of_pos (by rw [hstring]; rfl)]
            exact .cons hkept hstrings
          · rw [hstring]
            exact nofun
        | none =>
          rw [hopening] at hread
          rw [List.filterMap_cons, hopening]
          rcases hread with hsame | ⟨l, hl, hnumber, hvalid, hbinding⟩
          · exact ⟨found, by rw [hliterals, hsame], hstrings, hfound⟩
          · refine ⟨l :: found, hlater hl, ?_,
              List.forall_mem_cons.2 ⟨⟨fun _ => hvalid, hbound hl hbinding⟩, hfound⟩⟩
            rw [List.filter_cons_of_neg (by rw [hnumber]; exact Bool.false_ne_true)]
            exact hstrings

/-- In a source that is valid UTF-8, the value of a string is valid exactly when it keeps the text between
its quotes, every number is valid, and a binding that is not valid is the value of a string. -/
theorem text_of_literals {source : Text} {ls : List Literal} (hsource : source.isUtf8 = true)
    (h : literals source = .ok ls) :
    List.Forall₂ (fun l o => l.value.isUtf8 = true ↔ o.KeepsText) (ls.filter (!·.numeric))
        (strings source) ∧
      ∀ l ∈ ls, (l.numeric = true → l.value.isUtf8 = true) ∧ Bound ls l.binding := by
  have htextual : Lexer.Textual { rest := source } :=
    ⟨hsource, List.forall_mem_nil _, List.forall_mem_nil _⟩
  obtain ⟨last, hrun, -, -, rfl⟩ := exists_last h
  obtain ⟨found, hliterals, hstrings, hfound⟩ := textual_run htextual hrun
  obtain rfl : last.literals.reverse = found := by
    rw [hliterals, List.append_nil, List.reverse_reverse]
  refine ⟨hstrings, fun l hl => ?_⟩
  obtain ⟨hnumber, hbinding⟩ := hfound l hl
  refine ⟨hnumber, hbinding.imp_right ?_⟩
  rintro ⟨k, hk, hspec⟩
  exact ⟨k, List.mem_reverse.2 hk, hspec⟩

end LiteralAudit.Python
