import LiteralAudit.Glob
import LiteralAudit.Proofs.Regex.Language

/-!
# The parts of a glob

A glob is a sequence of parts (`Glob.Part`), read from the left (`Glob.parts`). Its expression spells
them one after the other (`expression_eq`), and is read back as the sequence of their own expressions,
tied to both ends of the text (`read_expression_eq`). So no glob fails to be compiled, unless it is too
long for an expression.
-/

namespace LiteralAudit.Glob

open Regex

/-- What a glob is made of. -/
inductive Part where
  /-- Any number of directories, as `**/` writes them. -/
  | directories
  /-- Any text, as `**` writes it. -/
  | anything
  /-- A text within one part of a path, as `*` writes it. -/
  | segment
  /-- One character within a part of a path, as `?` writes it. -/
  | one
  /-- The character itself. -/
  | char (c : Char)
  deriving Repr, DecidableEq

/-- The parts of the characters of a glob. -/
def partsOf : List Char → List Part
  | '*' :: '*' :: '/' :: rest => .directories :: partsOf rest
  | '*' :: '*' :: rest => .anything :: partsOf rest
  | '*' :: rest => .segment :: partsOf rest
  | '?' :: rest => .one :: partsOf rest
  | c :: rest => .char c :: partsOf rest
  | [] => []

/-- The parts of a glob. -/
def parts (glob : Text) : List Part := partsOf glob.chars

namespace Part

/-- How the expression of a glob writes a part. -/
def spelling : Part → List Char
  | directories => ['(', '?', ':', '.', '*', '/', ')', '?']
  | anything => ['.', '*']
  | segment => ['[', '^', '/', ']', '*']
  | one => ['[', '^', '/', ']']
  | char c => if isSpecial c then ['\\', c] else [c]

/-- Any characters but line breaks. -/
def withinLine : Regex := .rep 0 none true (.chars (CharSet.complement [(10, 10)]))

/-- A character other than a slash. -/
def noSlash : Regex := .chars (CharSet.complement [(47, 47)])

/-- The expression of a part. -/
def regex : Part → Regex
  | directories => .rep 0 (some 1) true (.seq withinLine (Regex.char '/'))
  | anything => withinLine
  | segment => .rep 0 none true noSlash
  | one => noSlash
  | char c => Regex.char c

/-- A part as the reader takes it in. -/
def item : Part → Item
  | directories => ⟨directories.regex, 4, 5⟩
  | anything => ⟨anything.regex, 2, 3⟩
  | segment => ⟨segment.regex, 2, 3⟩
  | one => ⟨one.regex, 1, 1⟩
  | char c => ⟨(char c).regex, 1, 1⟩

/-- How many steps the reader takes for a part. -/
def steps : Part → Nat
  | directories => 6
  | anything | segment => 2
  | one | char _ => 1

@[simp] theorem regex_item (p : Part) : p.item.regex = p.regex := by cases p <;> rfl

theorem depth_item_le (p : Part) : p.item.depth ≤ 4 := by cases p <;> simp [item]

theorem plain_regex (p : Part) : p.regex.plain = true := by cases p <;> rfl

end Part

/-! ## Spelling -/

theorem expressionOf_eq (cs : List Char) :
    expressionOf cs = Text.ofChars ((partsOf cs).flatMap Part.spelling) := by
  fun_induction partsOf cs with
  | case1 rest ih =>
    rw [expressionOf, ih, List.flatMap_cons, Text.ofChars_append]
    rfl
  | case2 rest hslash ih =>
    rw [expressionOf, ih, List.flatMap_cons, Text.ofChars_append]
    · rfl
    · exact hslash
  | case3 rest hslash hstar ih =>
    rw [expressionOf, ih, List.flatMap_cons, Text.ofChars_append]
    · rfl
    · exact hslash
    · exact hstar
  | case4 rest ih =>
    rw [expressionOf, ih, List.flatMap_cons, Text.ofChars_append]
    rfl
  | case5 c rest h₁ h₂ h₃ h₄ ih =>
    rw [expressionOf, ih, List.flatMap_cons, Text.ofChars_append]
    · refine congrArg (· ++ _) ?_
      rw [Part.spelling]
      split
      · rw [Text.ofChars_cons]
        exact congrArg _ (List.append_nil _).symm
      · exact (List.append_nil _).symm
    all_goals assumption
  | case6 => rfl

theorem expression_eq (glob : Text) :
    expression glob = Text.ofChars ('^' :: (parts glob).flatMap Part.spelling ++ ['$']) := by
  rw [expression, expressionOf_eq, parts, Text.ofChars_append]
  rfl

/-! ## Reading -/

/-- The state behind one more item. -/
def taken (st : State) (item : Item) (last : Option (List Char)) : State :=
  { st with frame := { st.frame with items := item :: st.frame.items }, lastRepeat := last }

section Steps

variable {whole rest : List Char} {fuel : Nat} {st : State}

theorem run_step {st' : State} {s : List Char} (hs : s ≠ [])
    (h : step whole st s = .ok (st', rest)) :
    run whole 0 (fuel + 1) st s = run whole 0 fuel st' rest := by
  rw [run, if_neg (by simpa using hs), h]
  rfl

theorem step_special (hst : st.options = {}) {c : Char} (hc : isSpecial c = true) :
    step whole st ('\\' :: c :: rest) = .ok (taken st (Part.char c).item none, rest) := by
  obtain ⟨frame, outside, _, groups, last⟩ := st
  subst hst
  simp only [isSpecial, List.contains_iff_mem, List.mem_cons, List.not_mem_nil, or_false] at hc
  rcases hc with rfl | rfl | rfl | rfl | rfl | rfl | rfl | rfl | rfl | rfl | rfl | rfl <;> rfl

theorem step_plain (hst : st.options = {}) {c : Char} (hc : isSpecial c = false) (hstar : c ≠ '*')
    (hone : c ≠ '?') :
    step whole st (c :: rest) = .ok (taken st (Part.char c).item none, rest) := by
  obtain ⟨frame, outside, _, groups, last⟩ := st
  subst hst
  unfold step
  dsimp only
  split
  all_goals first
    | rfl
    | exact absurd rfl hstar
    | exact absurd rfl hone
    | cases hc

theorem step_noSlash (hst : st.options = {}) :
    step whole st ('[' :: '^' :: '/' :: ']' :: rest) = .ok (taken st Part.one.item none, rest) := by
  obtain ⟨frame, outside, _, groups, last⟩ := st
  subst hst
  rfl

theorem step_dot (hst : st.options = {}) :
    step whole st ('.' :: rest) =
      .ok (taken st { regex := .chars (CharSet.complement [(10, 10)]) } none, rest) := by
  obtain ⟨frame, outside, _, groups, last⟩ := st
  subst hst
  rfl

theorem step_open (hst : st.options = {}) :
    step whole st ('(' :: '?' :: ':' :: rest) = .ok (st.openGroup false, rest) := by
  obtain ⟨frame, outside, _, groups, last⟩ := st
  subst hst
  rfl

/-- A repetition of an item that may be repeated. -/
theorem repeatLast_taken {item : Item} {s : List Char} {least : Nat} {most : Option Nat}
    (hst : st.options = {}) (hitem : (item.repeated least most true).fault? = none)
    (hrest : rest.head? ≠ some '?') :
    repeatLast (taken st item none) whole least most false s rest =
      .ok (taken st (item.repeated least most true) (some s), rest) := by
  obtain ⟨frame, outside, _, groups, last⟩ := st
  subst hst
  have hmarked : (rest.head? == some '?') = false := beq_eq_false_iff_ne.2 hrest
  simp [repeatLast, taken, hmarked, hitem]

theorem step_star {item : Item} (hst : st.options = {})
    (hitem : (item.repeated 0 none true).fault? = none) (hrest : rest.head? ≠ some '?') :
    step whole (taken st item none) ('*' :: rest) =
      .ok (taken st (item.repeated 0 none true) (some ('*' :: rest)), rest) :=
  repeatLast_taken hst hitem hrest

theorem step_opt {item : Item} (hst : st.options = {})
    (hitem : (item.repeated 0 (some 1) true).fault? = none) (hrest : rest.head? ≠ some '?') :
    step whole (taken st item none) ('?' :: rest) =
      .ok (taken st (item.repeated 0 (some 1) true) (some ('?' :: rest)), rest) :=
  repeatLast_taken hst hitem hrest

/-- A group that is not remembered leaves what it holds as one item. -/
theorem step_close {last last' : Option (List Char)} (hst : st.options = {}) :
    step whole (taken (taken (st.openGroup false) Part.anything.item last) (Part.char '/').item last')
        (')' :: rest) =
      .ok (taken st ⟨.seq Part.withinLine (Regex.char '/'), 3, 4⟩ none, rest) := by
  obtain ⟨frame, outside, _, groups, last⟩ := st
  subst hst
  rfl

variable (whole fuel) in
/-- The reader takes in one part. What is behind must not make a repetition lazy. -/
theorem run_spelling {p : Part} (hst : st.options = {}) (hp : p ≠ .char '*' ∧ p ≠ .char '?')
    (hrest : rest.head? ≠ some '?') :
    ∃ last, run whole 0 (fuel + p.steps) st (p.spelling ++ rest) =
      run whole 0 fuel (taken st p.item last) rest := by
  cases p with
  | directories =>
    refine ⟨some ('?' :: rest), ?_⟩
    calc run whole 0 (fuel + 6) st ('(' :: '?' :: ':' :: '.' :: '*' :: '/' :: ')' :: '?' :: rest)
      _ = run whole 0 (fuel + 5) (st.openGroup false) ('.' :: '*' :: '/' :: ')' :: '?' :: rest) :=
        run_step (by simp) (step_open hst)
      _ = run whole 0 (fuel + 4) _ ('*' :: '/' :: ')' :: '?' :: rest) :=
        run_step (by simp) (step_dot hst)
      _ = run whole 0 (fuel + 3) _ ('/' :: ')' :: '?' :: rest) :=
        run_step (by simp) (step_star hst rfl (by simp))
      _ = run whole 0 (fuel + 2) _ (')' :: '?' :: rest) :=
        run_step (by simp) (step_plain (c := '/') (by exact hst) rfl (by decide) (by decide))
      _ = run whole 0 (fuel + 1) _ ('?' :: rest) := run_step (by simp) (step_close hst)
      _ = run whole 0 fuel _ rest := run_step (by simp) (step_opt hst rfl hrest)
  | anything =>
    refine ⟨some ('*' :: rest), ?_⟩
    calc run whole 0 (fuel + 2) st ('.' :: '*' :: rest)
      _ = run whole 0 (fuel + 1) _ ('*' :: rest) := run_step (by simp) (step_dot hst)
      _ = run whole 0 fuel _ rest := run_step (by simp) (step_star hst rfl hrest)
  | segment =>
    refine ⟨some ('*' :: rest), ?_⟩
    calc run whole 0 (fuel + 2) st ('[' :: '^' :: '/' :: ']' :: '*' :: rest)
      _ = run whole 0 (fuel + 1) _ ('*' :: rest) := run_step (by simp) (step_noSlash hst)
      _ = run whole 0 fuel _ rest := run_step (by simp) (step_star hst rfl hrest)
  | one => exact ⟨_, run_step (by simp [Part.spelling]) (step_noSlash hst)⟩
  | char c =>
    have hstar : c ≠ '*' := fun h => hp.1 (congrArg _ h)
    have hone : c ≠ '?' := fun h => hp.2 (congrArg _ h)
    rw [Part.spelling]
    cases hc : isSpecial c with
    | true => exact ⟨_, run_step (by simp) (step_special hst hc)⟩
    | false => exact ⟨_, run_step (by simp) (step_plain hst hc hstar hone)⟩

end Steps

/-- Stars and question marks are never left to mean themselves. -/
theorem ne_of_mem_partsOf {cs : List Char} {p : Part} (h : p ∈ partsOf cs) :
    p ≠ .char '*' ∧ p ≠ .char '?' := by
  fun_induction partsOf cs with
  | case1 rest ih | case2 rest _ ih | case3 rest _ _ ih | case4 rest ih =>
    obtain rfl | h := List.mem_cons.1 h
    · exact ⟨by simp, by simp⟩
    · exact ih h
  | case5 c rest _ _ hstar hone ih =>
    obtain rfl | h := List.mem_cons.1 h
    · exact ⟨fun h => hstar (Part.char.inj h), fun h => hone (Part.char.inj h)⟩
    · exact ih h
  | case6 => cases h

/-- No part begins with the sign that makes a repetition lazy. -/
theorem head?_spelling_ne {ps : List Part} (hps : ∀ p ∈ ps, p ≠ .char '*' ∧ p ≠ .char '?') :
    (ps.flatMap Part.spelling ++ ['$']).head? ≠ some '?' := by
  cases ps with
  | nil => decide
  | cons p ps =>
    obtain ⟨-, hone⟩ := hps p List.mem_cons_self
    cases p with
    | char c =>
      have hc : c ≠ '?' := fun h => hone (congrArg _ h)
      cases hspecial : isSpecial c <;> simp [Part.spelling, hspecial, hc]
    | _ => simp [Part.spelling]

/-- The reader takes in parts, the last one on top. -/
theorem run_parts (whole : List Char) (fuel : Nat) {st : State} {ps : List Part} (hst : st.options = {})
    (hps : ∀ p ∈ ps, p ≠ .char '*' ∧ p ≠ .char '?') :
    ∃ last, run whole 0 (fuel + (ps.map Part.steps).sum) st (ps.flatMap Part.spelling ++ ['$']) =
      run whole 0 fuel { st with
        frame := { st.frame with items := (ps.map Part.item).reverse ++ st.frame.items }
        lastRepeat := last } ['$'] := by
  induction ps generalizing st with
  | nil => exact ⟨st.lastRepeat, rfl⟩
  | cons p ps ih =>
    obtain ⟨hp, hps⟩ := List.forall_mem_cons.1 hps
    obtain ⟨_, hstep⟩ := run_spelling whole (fuel + (ps.map Part.steps).sum) hst hp
      (head?_spelling_ne hps)
    obtain ⟨last, hrun⟩ := @ih (taken st p.item _) hst hps
    refine ⟨last, ?_⟩
    rw [List.flatMap_cons, List.append_assoc, List.map_cons, List.sum_cons, Nat.add_comm p.steps,
      ← Nat.add_assoc, hstep, hrun]
    simp [taken]

/-! ## The whole expression -/

theorem steps_le_length_spelling (p : Part) : p.steps ≤ p.spelling.length := by
  cases p with
  | char c => cases hc : isSpecial c <;> simp [Part.steps, Part.spelling, hc]
  | _ => simp [Part.steps, Part.spelling]

theorem sum_steps_le (ps : List Part) :
    (ps.map Part.steps).sum ≤ (ps.flatMap Part.spelling).length := by
  rw [List.length_flatMap]
  exact List.sum_le_sum fun p _ => steps_le_length_spelling p

/-- Every two characters of a glob come to at most four steps. A star at the end comes to three. -/
theorem size_partsOf_le (cs : List Char) :
    ((partsOf cs).map (·.item.size)).sum ≤ 2 * cs.length + 1 ∧
      (cs.head? ≠ some '*' → ((partsOf cs).map (·.item.size)).sum ≤ 2 * cs.length) := by
  fun_induction partsOf cs with
  | case1 rest ih =>
    refine ⟨?_, fun h => absurd rfl h⟩
    have hsize : Part.directories.item.size = 5 := rfl
    simp only [List.map_cons, List.sum_cons, List.length_cons, hsize]
    omega
  | case2 rest _ ih =>
    refine ⟨?_, fun h => absurd rfl h⟩
    have hsize : Part.anything.item.size = 3 := rfl
    simp only [List.map_cons, List.sum_cons, List.length_cons, hsize]
    omega
  | case3 rest _ hstar ih =>
    refine ⟨?_, fun h => absurd rfl h⟩
    have hsize : Part.segment.item.size = 3 := rfl
    have hrest := ih.2 fun h => by
      cases rest with
      | nil => cases h
      | cons c rest => exact hstar rest (congrArg (· :: rest) (Option.some.inj h))
    simp only [List.map_cons, List.sum_cons, List.length_cons, hsize]
    omega
  | case4 rest ih =>
    have hsize : Part.one.item.size = 1 := rfl
    simp only [List.map_cons, List.sum_cons, List.length_cons, hsize]
    omega
  | case5 c rest _ _ _ _ ih =>
    have hsize : (Part.char c).item.size = 1 := rfl
    simp only [List.map_cons, List.sum_cons, List.length_cons, hsize]
    omega
  | case6 => exact ⟨Nat.zero_le _, fun _ => Nat.zero_le _⟩

theorem foldl_max_le (ns : List Nat) {a b : Nat} (ha : a ≤ b) (h : ∀ n ∈ ns, n ≤ b) :
    ns.foldl max a ≤ b := by
  induction ns generalizing a with
  | nil => exact ha
  | cons n ns ih =>
    obtain ⟨hn, hns⟩ := List.forall_mem_cons.1 h
    exact ih (max_le ha hn) hns

/-- Two items or more, read as a sequence. -/
theorem close_cons {item : Item} {items : List Item} (h : items ≠ []) :
    Frame.close { items := item :: items } =
      { regex := seqAll ((item :: items).reverse.map (·.regex))
        depth := 1 + ((item :: items).map (·.depth)).foldl max 0
        size := ((item :: items).map (·.size)).sum } := by
  obtain ⟨second, items, rfl⟩ := List.exists_cons_of_ne_nil h
  rw [List.sum_eq_foldl]
  simp only [Frame.close, Item.choice, Item.sequence, Item.combine, Nat.zero_mul, Nat.add_zero]

/-- The item of a sequence of parts between the two ends of the text. -/
def ends (ps : List Part) : List Item :=
  ⟨.place .textEnd, 1, 1⟩ :: ((ps.map Part.item).reverse ++ [⟨.place .textStart, 1, 1⟩])

theorem close_ends (ps : List Part) :
    (Frame.close { items := ends ps }).regex = anchored (ps.map Part.regex) ∧
      (Frame.close { items := ends ps }).depth ≤ 5 ∧
      (Frame.close { items := ends ps }).size = (ps.map (·.item.size)).sum + 2 := by
  rw [ends, close_cons (by simp)]
  refine ⟨?_, ?_, ?_⟩
  · have hregex : (fun item : Item => item.regex) ∘ Part.item = Part.regex := funext Part.regex_item
    simp [anchored, hregex]
  · have hle := foldl_max_le ((ends ps).map (·.depth)) (Nat.zero_le 4) ?_
    · exact Nat.add_le_add_left hle 1
    · intro n hn
      obtain ⟨item, hitem, rfl⟩ := List.mem_map.1 hn
      simp only [ends, List.mem_cons, List.mem_append, List.mem_reverse, List.mem_map,
        List.not_mem_nil, or_false] at hitem
      rcases hitem with rfl | ⟨p, -, rfl⟩ | rfl
      · decide
      · exact p.depth_item_le
      · decide
  · simp only [List.map_cons, List.map_append, List.map_reverse, List.map_map, List.sum_cons,
      List.sum_append, List.sum_reverse, List.map_nil, List.sum_nil, Function.comp_def]
    omega

/-- How many steps the expression of a glob comes to, with those for both ends of the text. -/
def size (glob : Text) : Nat := ((parts glob).map (·.item.size)).sum + 2

/-- The reader gets through the expression of a glob, whatever its size. -/
theorem run_expression (glob : Text) :
    ∃ last, run (expression glob).chars 0 ((expression glob).chars.length + 1) {}
      (expression glob).chars = .ok { frame := { items := ends (parts glob) }, lastRepeat := last } := by
  have hchars : (expression glob).chars = '^' :: ((parts glob).flatMap Part.spelling ++ ['$']) := by
    rw [expression_eq, Text.chars_ofChars]
    rfl
  obtain ⟨more, hfuel⟩ := Nat.exists_eq_add_of_le' (sum_steps_le (parts glob))
  have hstart : (taken {} ⟨.place .textStart, 1, 1⟩ none).options = {} := rfl
  obtain ⟨last, hparts⟩ := run_parts (expression glob).chars (more + 2) hstart
    fun p hp => ne_of_mem_partsOf hp
  refine ⟨none, ?_⟩
  calc run (expression glob).chars 0 ((expression glob).chars.length + 1) {} (expression glob).chars
    _ = run (expression glob).chars 0 (more + 2 + ((parts glob).map Part.steps).sum + 1) {}
        ('^' :: ((parts glob).flatMap Part.spelling ++ ['$'])) := by
      rw [hchars, List.length_cons, List.length_append, hfuel, List.length_singleton]
      congr 1
      omega
    _ = _ := run_step (by simp) rfl
    _ = _ := hparts
    _ = run (expression glob).chars 0 (more + 1) _ [] := run_step (by simp) rfl
    _ = _ := rfl

/-- The expression of a glob is read back as the expressions of its parts, tied to both ends, if it is not
too large for an expression, which is all that can be wrong with it. -/
theorem read_expression_eq (glob : Text) : Regex.read (expression glob) =
    if Item.maxSize < size glob then .error ⟨.tooLarge, expression glob⟩
    else .ok (anchored ((parts glob).map Part.regex)) := by
  have hgood : (expression glob).runes.takeWhile (fun r => !r.isStray) = (expression glob).runes := by
    rw [List.takeWhile_eq_self_iff]
    have hutf8 : (expression glob).isUtf8 = true := by rw [expression_eq]; exact Text.isUtf8_ofChars _
    exact List.all_eq_true.1 hutf8
  obtain ⟨last, hrun⟩ := run_expression glob
  obtain ⟨hregex, hdepth, hsize⟩ := close_ends (parts glob)
  rw [Regex.read]
  dsimp only
  rw [hgood, Nat.sub_self, ← Text.chars, hrun]
  dsimp only
  rw [Item.fault?, hsize, ← size]
  by_cases hlarge : Item.maxSize < size glob
  · rw [if_pos hlarge, if_pos hlarge]
  · rw [if_neg hlarge, if_neg hlarge, if_neg (Nat.not_lt.2 (hdepth.trans (by decide))), hregex]
    rfl

theorem size_le (glob : Text) : size glob ≤ 2 * glob.chars.length + 3 := by
  have hparts := (size_partsOf_le glob.chars).1
  rw [size, parts]
  omega

theorem read_expression {glob : Text} (h : 2 * glob.chars.length + 3 ≤ Item.maxSize) :
    Regex.read (expression glob) = .ok (anchored ((parts glob).map Part.regex)) := by
  rw [read_expression_eq, if_neg (Nat.not_lt.2 ((size_le glob).trans h))]

end LiteralAudit.Glob
