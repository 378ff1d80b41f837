import LiteralAudit.Proofs.Library.DottedQuads
import LiteralAudit.Proofs.Literal.Go.Numbers
import LiteralAudit.Proofs.Literal.Python.Numbers
import LiteralAudit.Proofs.Visit.MoreRules

/-!
# Ports in source files

One rule of the built-in library looks at numbers: it takes a digit other than zero and three or four more,
with nothing around them (`read_numericPort`). The words of its body are the decimal forms of the numbers
from 1000 to 99999 (`spells_portDigits`), and of those the rule keeps the numbers of ports. So a number is
classified as a port when it is one and has four digits at least, and otherwise not at all
(`numbers_classified`).

An integer that a Python or Go file assigns to a variable is read as the same literal however it is
spelled, so that its spelling hides it neither from the rules nor from the whitelist. It is reported
exactly when it is the number of a port, has four digits at least and is not allowed
(`ports_found_in_every_spelling`).
-/

namespace LiteralAudit

open Regex

/-! ## Decimal forms as digits one after the other -/

/-- Behind a number other than zero, digits go on with its decimal form. -/
theorem exists_ofNat_append {ws : List Text} (hws : ∀ w ∈ ws, digit.Spells w) {m : Nat} (hm : 0 < m) :
    ∃ n, Text.ofNat m ++ ws.flatten = Text.ofNat n ∧ m * 10 ^ ws.length ≤ n ∧
      n < (m + 1) * 10 ^ ws.length := by
  induction ws generalizing m with
  | nil => exact ⟨m, List.append_nil _, by simp, by simp⟩
  | cons w ws ih =>
    obtain ⟨hw, hrest⟩ := List.forall_mem_cons.1 hws
    obtain ⟨d, hd, rfl⟩ := spells_digit.1 hw
    obtain ⟨n, hn, hle, hlt⟩ := ih hrest (show 0 < m * 10 + d by omega)
    refine ⟨n, ?_, ?_, ?_⟩
    · rw [List.flatten_cons, ← List.append_assoc, ← Text.ofNat_push hm (by omega), hn]
    · calc m * 10 ^ (ws.length + 1) = m * 10 * 10 ^ ws.length := by ring
        _ ≤ (m * 10 + d) * 10 ^ ws.length := Nat.mul_le_mul_right _ (Nat.le_add_right ..)
        _ ≤ n := hle
    · calc n < (m * 10 + d + 1) * 10 ^ ws.length := hlt
        _ ≤ (m + 1) * 10 * 10 ^ ws.length := Nat.mul_le_mul_right _ (by omega)
        _ = (m + 1) * 10 ^ (ws.length + 1) := by ring

/-- The decimal form of a number is its first digit and those behind it. -/
theorem exists_digits_ofNat (k : Nat) {n : Nat} (hle : 10 ^ k ≤ n) (hlt : n < 10 ^ (k + 1)) :
    ∃ (m : Nat) (ws : List Text), 1 ≤ m ∧ m ≤ 9 ∧ ws.length = k ∧ (∀ w ∈ ws, digit.Spells w) ∧
      Text.ofNat n = Text.ofNat m ++ ws.flatten := by
  induction k generalizing n with
  | zero =>
    rw [Nat.zero_add, pow_one] at hlt
    exact ⟨n, [], hle, by omega, rfl, List.forall_mem_nil _, (List.append_nil _).symm⟩
  | succ k ih =>
    have hten : 10 ≤ n := le_trans (by rw [pow_succ]; exact Nat.le_mul_of_pos_left _ (by positivity)) hle
    obtain ⟨m, ws, hone, hnine, hlength, hws, hform⟩ := @ih (n / 10)
      (by rw [Nat.le_div_iff_mul_le (by decide), ← pow_succ]; exact hle)
      (by rw [Nat.div_lt_iff_lt_mul (by decide), ← pow_succ]; exact hlt)
    refine ⟨m, ws ++ [Text.ofNat (n % 10)], hone, hnine, by rw [List.length_append, hlength]; rfl, ?_, ?_⟩
    · exact List.forall_mem_append.2
        ⟨hws, List.forall_mem_singleton.2 (spells_digit.2 ⟨_, by omega, rfl⟩)⟩
    · rw [Text.ofNat_of_ge hten, hform, List.flatten_append, List.flatten_singleton, List.append_assoc]

namespace Regex

/-- Four or five digits, the first of which is no zero. -/
def portDigits : Regex := .seq (.chars [(49, 57)]) (.rep 3 (some 4) true digit)

theorem plain_portDigits : portDigits.plain = true := by decide

/-- The words of the port rule are the decimal forms of the numbers of four or five digits. -/
theorem spells_portDigits {w : Text} :
    portDigits.Spells w ↔ ∃ n, 1000 ≤ n ∧ n ≤ 99999 ∧ w = Text.ofNat n := by
  constructor
  · rintro ⟨u, -, rfl, hu, ws, rfl, hleast, hmost, hws⟩
    obtain ⟨m, hone, hnine, rfl⟩ := (spells_digits 1 9 (by decide)).1 hu
    obtain ⟨n, hn, hle, hlt⟩ := exists_ofNat_append hws hone
    refine ⟨n, ?_, ?_, hn⟩
    · calc 1000 = 1 * 10 ^ 3 := rfl
        _ ≤ m * 10 ^ ws.length := Nat.mul_le_mul hone (Nat.pow_le_pow_right (by decide) hleast)
        _ ≤ n := hle
    · refine Nat.le_of_lt_succ (hlt.trans_le ?_)
      calc (m + 1) * 10 ^ ws.length ≤ 10 * 10 ^ 4 :=
            Nat.mul_le_mul (by omega) (Nat.pow_le_pow_right (by decide) (hmost 4 rfl))
        _ = 99999 + 1 := rfl
  · rintro ⟨n, hle, hlt, rfl⟩
    have hdigits : ∃ (m : Nat) (ws : List Text), 1 ≤ m ∧ m ≤ 9 ∧ (3 ≤ ws.length ∧ ws.length ≤ 4) ∧
        (∀ w ∈ ws, digit.Spells w) ∧ Text.ofNat n = Text.ofNat m ++ ws.flatten := by
      by_cases hfour : n < 10 ^ 4
      · obtain ⟨m, ws, hone, hnine, hlength, hspec⟩ := exists_digits_ofNat 3 hle hfour
        exact ⟨m, ws, hone, hnine, by omega, hspec⟩
      · obtain ⟨m, ws, hone, hnine, hlength, hspec⟩ :=
          exists_digits_ofNat 4 (not_lt.1 hfour) (show n < 10 ^ 5 by omega)
        exact ⟨m, ws, hone, hnine, by omega, hspec⟩
    obtain ⟨m, ws, hone, hnine, ⟨hleast, hmost⟩, hws, hform⟩ := hdigits
    refine ⟨_, _, hform, (spells_digits 1 9 (by decide)).2 ⟨m, hone, hnine, rfl⟩, ws, rfl, hleast, ?_,
      hws⟩
    rintro _ ⟨⟩
    exact hmost

end Regex

/-- An expression that is tied to both ends of a text takes all of it. -/
theorem Framed.whole {body : Regex} {v w z : Text} (h : Framed .textStart body .textEnd v w z) :
    v = [] ∧ z = [] := by
  have hfront := h.front
  have hback := h.back
  simp only [Place.holds, Option.isNone_map, Option.isNone_iff_eq_none] at hfront hback
  exact ⟨List.getLast?_eq_none_iff.1 hfront, List.head?_eq_none_iff.1 hback⟩

namespace Library

/-- The rules before the one for numbers. -/
def beforePort : List RuleSource := builtinRules.take 12

/-- The rule for ports among numbers. -/
def numericPort : RuleSource := builtinRules[12]

/-- The rules behind the one for numbers. -/
def afterPort : List RuleSource := builtinRules.drop 13

theorem read_numericPort :
    Regex.read numericPort.numeric = .ok (framed .textStart portDigits .textEnd) :=
  eq_ok_of_toOption (by decide)

/-- The rule for numbers compiles, to a search for four or five digits and nothing else. -/
theorem compile_numericPort : ∃ rule p, numericPort.compile.toOption = some rule ∧
    rule.category = port ∧ rule.portRange = true ∧ rule.numeric? = some p ∧
      p.automaton = (framed .textStart portDigits .textEnd).automaton := by
  have hnumeric : numericPort.pattern? "numeric" numericPort.numeric =
      .ok (some ⟨numericPort.numeric, (framed .textStart portDigits .textEnd).automaton⟩) := by
    have hnonempty : numericPort.numeric.isEmpty = false := by decide
    unfold RuleSource.pattern? Pattern.compile
    rw [hnonempty, read_numericPort]
    rfl
  refine ⟨{ numericPort with
      value? := none, numeric? := some ⟨numericPort.numeric, _⟩, binding? := none },
    ⟨numericPort.numeric, _⟩, ?_, rfl, rfl, rfl, rfl⟩
  unfold RuleSource.compile
  rw [hnumeric]
  rfl

/-- A rule without a pattern for numbers reports nothing of one. -/
theorem find_number_eq_nil {rule : Rule} (h : rule.numeric? = none) {c : Candidate}
    (hc : c.numeric = true) : rule.find c = [] := by
  unfold Rule.find Rule.matchNumber
  rw [hc, h]
  cases rule.portRange <;> rfl

/-- What the rule for numbers looks for in the decimal form of a number. -/
theorem collect_ofNat {p : Pattern}
    (hauto : p.automaton = (framed .textStart portDigits .textEnd).automaton) (n : Nat) :
    Rule.collect p (Text.ofNat n) = if 1000 ≤ n ∧ n ≤ 99999 then [Text.ofNat n] else [] := by
  have hascii := Text.isAscii_ofNat n
  split
  · next h =>
    have hspells : portDigits.Spells (Text.ofNat n) := spells_portDigits.2 ⟨n, h.1, h.2, rfl⟩
    have hempty : ¬ portDigits.Spells [] := by
      intro hnil
      obtain ⟨m, -, -, hm⟩ := spells_portDigits.1 hnil
      have hpos := Text.length_ofNat_pos m
      rw [← hm] at hpos
      cases hpos
    refine Rule.collect_eq_whole hauto plain_portDigits hascii hempty ⟨hspells, rfl, rfl⟩ ?_
    exact fun v w z _ hframed => hframed.whole
  · next h =>
    refine Rule.collect_eq_nil hauto hascii fun v w z heq hframed => h ?_
    obtain ⟨rfl, rfl⟩ := hframed.whole
    obtain ⟨m, hle, hlt, hm⟩ := spells_portDigits.1 hframed.spells
    rw [List.nil_append, List.append_nil, hm] at heq
    obtain rfl := Text.ofNat_injective heq
    exact ⟨hle, hlt⟩

theorem isPort_ofNat {n : Nat} (hn : n ≤ 99999) :
    Rule.isPort (Text.ofNat n) = (decide (1 ≤ n) && decide (n ≤ 65535)) := by
  rw [Rule.isPort, Number.readDecimal?_ofNat_of_lt (by omega), Option.any_some]
  norm_cast

/-- A number is classified as a port, which is all of it, when it is the number of one and has four digits
at least. Otherwise nothing is found in it, whatever it is bound to. -/
theorem numbers_classified (n : Nat) (binding : Text) :
    if 1000 ≤ n ∧ n ≤ 65535 then
      ∃ f, builtin.classify ⟨Text.ofNat n, binding, true⟩ = [f] ∧ f.category.name = port ∧
        f.category.kind = "hardcoded_port" ∧ f.values = [Text.ofNat n]
    else builtin.classify ⟨Text.ofNat n, binding, true⟩ = [] := by
  obtain ⟨rule, p, hcompile, hcategory, hports, hnumeric, hauto⟩ := compile_numericPort
  have hfound : rule.find ⟨Text.ofNat n, binding, true⟩ =
      if 1000 ≤ n ∧ n ≤ 65535 then [Text.ofNat n] else [] := by
    have hfind : rule.find ⟨Text.ofNat n, binding, true⟩ =
        (Rule.collect p (Text.ofNat n)).filter Rule.isPort := by
      simp only [Rule.find, Rule.matchNumber, hnumeric, hports, if_true]
    rw [hfind, collect_ofNat hauto]
    by_cases hdigits : 1000 ≤ n ∧ n ≤ 99999
    · rw [if_pos hdigits, List.filter_singleton, isPort_ofNat hdigits.2]
      by_cases hle : n ≤ 65535
      · rw [if_pos ⟨hdigits.1, hle⟩]
        simp [hle, show 1 ≤ n by omega]
      · rw [if_neg fun h => hle h.2]
        simp [hle]
    · rw [if_neg hdigits, if_neg fun h => hdigits ⟨h.1, by omega⟩]
      rfl
  have hnone : ∀ s ∈ beforePort ++ afterPort, s.numeric = [] := by decide
  have hclassify := classify_builtin_of_one (c := ⟨Text.ofNat n, binding, true⟩)
    (show builtinRules = beforePort ++ numericPort :: afterPort from rfl) hcompile fun s hs r hr => by
      have hnumeric := (RuleSource.patterns_of_compile hr).2.1
      rw [hnone s hs] at hnumeric
      exact find_number_eq_nil (Except.ok.inj hnumeric).symm rfl
  rw [hfound, hcategory] at hclassify
  split
  · next h =>
    rw [if_pos h, if_neg (List.cons_ne_nil _ _)] at hclassify
    rw [hclassify]
    exact ⟨_, rfl, rfl, rfl, rfl⟩
  · next h =>
    rw [if_neg h, if_pos rfl] at hclassify
    exact hclassify

end Library

end LiteralAudit

namespace LiteralAudit.Visit

variable {w? : Option Whitelist} {path source t : Text} {n : Nat}

/-- The extensions of Python files. -/
def pythonExtensions : List Text := List.map Text.ofString [".py", ".pyw", ".pyi"]

theorem extract_python (h : Text.toLower (Path.extension path) ∈ pythonExtensions) (source : Text) :
    extract path source = Python.literals source := by
  have hext : (Text.toLower (Path.extension path) == ".py" || Text.toLower (Path.extension path) == ".pyw" ||
      Text.toLower (Path.extension path) == ".pyi") = true := by
    simpa [pythonExtensions, or_assoc] using h
  unfold extract
  dsimp only
  rw [if_pos hext]

theorem extract_go (h : Text.toLower (Path.extension path) = ".go") (source : Text) :
    extract path source = Go.literals path source := by
  have hext : (Text.ofString ".go" == ".py" || Text.ofString ".go" == ".pyw" ||
      Text.ofString ".go" == ".pyi") = false := by decide
  unfold extract
  dsimp only
  rw [h, hext, if_neg Bool.false_ne_true, if_pos (by decide)]

/-- A Python or Go file assigns an integer to a variable and does nothing else. -/
inductive AssignsNumber (t : Text) : (path source : Text) → Prop where
  | python {path stop : Text} (hpath : Text.toLower (Path.extension path) ∈ pythonExtensions)
      (hstop : stop = [] ∨ stop = "\n") : AssignsNumber t path (Python.numberAssignment t stop)
  | go {path stop : Text} (hpath : Text.toLower (Path.extension path) = ".go")
      (hstop : stop = [] ∨ stop = "\n") : AssignsNumber t path (Go.numberAssignment t stop)

/-- The file has one literal, the decimal form of the integer. -/
theorem AssignsNumber.extract_eq (h : AssignsNumber t path source) (ht : Number.Spelling n t)
    (hn : n < 2 ^ 63) :
    ∃ lit, extract path source = .ok [lit] ∧ lit.value = Text.ofNat n ∧ lit.numeric = true := by
  cases h with
  | python hpath hstop =>
    refine ⟨_, (extract_python hpath _).trans (Python.literals_of_assignment ht hn hstop), rfl, rfl⟩
  | go hpath hstop =>
    obtain ⟨lit, hlits, hspec⟩ := Go.literals_of_numberAssignment path ht hn hstop
    exact ⟨lit, (extract_go hpath _).trans hlits, hspec⟩

/-- A number is that of a port, has four digits at least, and neither it nor its decimal form is allowed. -/
def ForbiddenPort (w? : Option Whitelist) (n : Nat) : Prop :=
  1000 ≤ n ∧ n ≤ 65535 ∧ ∀ w ∈ w?, (n : Int) ∉ w.ports ∧ Text.ofNat n ∉ w.strings

theorem allows_port (w : Whitelist) (hn : n ≤ 65535) :
    w.allows Library.port (Text.ofNat n) (Text.ofNat n) = true ↔
      (n : Int) ∈ w.ports ∨ Text.ofNat n ∈ w.strings := by
  have hport : (Library.port == Library.ipAddress) = false := by decide
  unfold Whitelist.allows
  rw [hport, Number.readDecimal?_ofNat_of_lt (by omega)]
  simp [or_comm]

/-- A number is reported exactly when it is a port that is not allowed. -/
theorem literalIssues_number (w? : Option Whitelist) (path : Text) {lit : Literal}
    (hvalue : lit.value = Text.ofNat n) (hnumeric : lit.numeric = true) :
    (ForbiddenPort w? n →
      ∃ i, literalIssues Library.builtin w? path lit = [i] ∧ i.kind = "hardcoded_port") ∧
    (¬ ForbiddenPort w? n → literalIssues Library.builtin w? path lit = []) := by
  have hclassified := Library.numbers_classified n lit.binding
  have hcandidate : candidate lit = ⟨Text.ofNat n, lit.binding, true⟩ := by
    rw [← hvalue, ← hnumeric]
    rfl
  rw [literalIssues_eq, hcandidate]
  split at hclassified
  · next hrange =>
    obtain ⟨f, hfound, hname, hkind, hvalues⟩ := hclassified
    have hallows : (w?.any fun w => w.allows f.category.name (Text.ofNat n) lit.value) = false ↔
        ForbiddenPort w? n := by
      rw [hname, hvalue]
      cases w? with
      | none => simp [ForbiddenPort, hrange]
      | some w =>
        rw [Option.any_some, ← Bool.not_eq_true, allows_port w hrange.2]
        simp [ForbiddenPort, hrange]
    rw [hfound]
    constructor
    · intro hforbidden
      have hkept : kept w? lit f = [Text.ofNat n] := by
        rw [kept, hvalues, List.filter_singleton, hallows.2 hforbidden]
        rfl
      exact ⟨issueOf w? path lit f, by simp [issue?, hkept], hkind⟩
    · intro hallowed
      have hkept : kept w? lit f = [] := by
        rw [kept, hvalues, List.filter_singleton, Bool.eq_true_of_not_eq_false (mt hallows.1 hallowed)]
        rfl
      simp [issue?, hkept]
  · next hrange =>
    rw [hclassified]
    exact ⟨fun h => absurd ⟨h.1, h.2.1⟩ hrange, fun _ => rfl⟩

/-- In every spelling, an integer that a file assigns to a variable is reported as a hardcoded port when it
is a port of four digits or more and neither it nor its decimal form is allowed, and otherwise nothing is
reported of the file, whatever the whitelist, unless it takes the file for a test. -/
theorem ports_found_in_every_spelling (ht : Number.Spelling n t) (hn : n < 2 ^ 63)
    (hsource : AssignsNumber t path source) (htest : w?.any (·.isTestFile path) = false) :
    (ForbiddenPort w? n →
      ∃ i, issues Library.builtin w? path source = [i] ∧ i.kind = "hardcoded_port") ∧
    (¬ ForbiddenPort w? n → issues Library.builtin w? path source = []) := by
  obtain ⟨lit, hextract, hvalue, hnumeric⟩ := hsource.extract_eq ht hn
  have hissues : issues Library.builtin w? path source = literalIssues Library.builtin w? path lit := by
    rw [issues, htest, hextract]
    simp
  rw [hissues]
  exact literalIssues_number w? path hvalue hnumeric

/-- A port in hexadecimal, with an underscore among its digits. -/
theorem spelling_8080 : Number.Spelling 8080 "0x1F_90" :=
  @Number.Spelling.prefixed 16 'x' [1, 15, 9, 0] [] "1F_90" (by decide) (.inl rfl)
    (.next (.numeral (by decide)) (by decide) (.inl rfl)
      (.next (.upper (by decide) (by decide)) (by decide) (.inr rfl)
        (.next (.numeral (by decide)) (by decide) (.inl rfl)
          (.last (.numeral (by decide)) (by decide)))))

/-- It is found in both languages. -/
theorem hexadecimal_port_found :
    (∃ i, issues Library.builtin none "server.py" "x = 0x1F_90\n" = [i] ∧ i.kind = "hardcoded_port") ∧
      ∃ i, issues Library.builtin none "server.go" "package p\nvar x = 0x1F_90\n" = [i] ∧
        i.kind = "hardcoded_port" := by
  have hforbidden : ForbiddenPort none 8080 := ⟨by decide, by decide, nofun⟩
  have hpython : AssignsNumber "0x1F_90" "server.py" "x = 0x1F_90\n" :=
    @AssignsNumber.python _ "server.py" "\n" (by decide) (.inr rfl)
  have hgo : AssignsNumber "0x1F_90" "server.go" "package p\nvar x = 0x1F_90\n" :=
    @AssignsNumber.go _ "server.go" "\n" (by decide) (.inr rfl)
  exact ⟨(ports_found_in_every_spelling spelling_8080 (by decide) hpython rfl).1 hforbidden,
    (ports_found_in_every_spelling spelling_8080 (by decide) hgo rfl).1 hforbidden⟩

end LiteralAudit.Visit
