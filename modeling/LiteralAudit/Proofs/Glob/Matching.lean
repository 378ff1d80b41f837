import LiteralAudit.Proofs.Glob.Parts
import LiteralAudit.Proofs.Path.Clean
import LiteralAudit.Proofs.Text.LineEnds

/-!
# What a glob selects

Each part of a glob stands for some texts (`Part.Means`), and the glob for those that are made up of such
texts, one for each of its parts (`Means`). The compiled globs of a list select the paths without line
breaks that they stand for, or whose names they stand for, and none of them fails to be compiled
(`compile_selects`). Texts are seen as characters: a byte that starts none counts as U+FFFD, in a glob
as in a path.
-/

namespace LiteralAudit

namespace Glob

open Regex
open Text (lf)

/-- What a part of a glob stands for. -/
def Part.Means : Part → List Char → Prop
  | directories, w => w = [] ∨ w.getLast? = some '/'
  | anything, _ => True
  | segment, w => '/' ∉ w
  | one, w => ∃ c, c ≠ '/' ∧ w = [c]
  | char c, w => w = [c]

/-- What a glob stands for: texts of its parts, one after the other. -/
def Means (ps : List Part) (t : List Char) : Prop :=
  ∃ ws : List (List Char), t = ws.flatten ∧ List.Forall₂ Part.Means ps ws

/-! ## Parts and their expressions -/

theorem mem_complement_singleton {d : Char} (hpos : 0 < d.toNat) (hlt : d.toNat < CharSet.maxCode) (c : Char) :
    CharSet.mem (CharSet.complement [(d.toNat, d.toNat)]) c.toNat = true ↔ c ≠ d := by
  have hset : CharSet.complement [(d.toNat, d.toNat)] =
      [(0, d.toNat - 1), (d.toNat + 1, CharSet.maxCode)] := by
    have hle : d.toNat + 1 ≤ CharSet.maxCode := hlt
    simp [CharSet.complement, CharSet.normal, CharSet.merge, CharSet.complementFrom, hpos, hle]
  have hc : c.toNat ≤ CharSet.maxCode := by
    rw [CharSet.maxCode]
    obtain h | ⟨-, h⟩ := c.valid
    · exact Nat.le_of_lt (h.trans (by decide))
    · exact Nat.le_of_lt_succ h
  have hne : c ≠ d ↔ c.toNat ≠ d.toNat := Char.toNat_inj.not.symm
  rw [hset, hne]
  simp only [CharSet.mem, List.any_cons, List.any_nil, Bool.or_false, Bool.or_eq_true, Bool.and_eq_true,
    decide_eq_true_eq]
  omega

theorem says_withinLine {w : List Char} : Part.withinLine.Says w ↔ '\n' ∉ w := by
  rw [Part.withinLine, says_star_chars]
  have hmem := mem_complement_singleton (d := '\n') (by decide) (by decide)
  exact ⟨fun h hbreak => (hmem _).1 (h _ hbreak) rfl,
    fun h c hc => (hmem c).2 fun heq => h (heq ▸ hc)⟩

theorem mem_noSlash (c : Char) : CharSet.mem (CharSet.complement [(47, 47)]) c.toNat = true ↔ c ≠ '/' :=
  mem_complement_singleton (d := '/') (by decide) (by decide) c

/-- In a text without line breaks, the expression of a part is what the part stands for. -/
theorem says_regex {p : Part} {w : List Char} (hw : '\n' ∉ w) : p.regex.Says w ↔ p.Means w := by
  cases p with
  | directories =>
    rw [Part.regex, says_opt, Part.Means]
    refine or_congr_right ?_
    constructor
    · rintro ⟨u, v, rfl, -, hv⟩
      rw [says_char.1 hv]
      exact List.getLast?_concat
    · intro h
      obtain ⟨u, rfl⟩ := List.getLast?_eq_some_iff.1 h
      exact ⟨u, ['/'], rfl, says_withinLine.2 fun h => hw (List.mem_append_left _ h), says_char.2 rfl⟩
  | anything => exact says_withinLine.trans ⟨fun _ => trivial, fun _ => hw⟩
  | segment =>
    rw [Part.regex, Part.noSlash, says_star_chars, Part.Means]
    exact ⟨fun h hslash => (mem_noSlash _).1 (h _ hslash) rfl,
      fun h c hc => (mem_noSlash c).2 fun heq => h (heq ▸ hc)⟩
  | one =>
    constructor
    · rintro ⟨c, rfl, hmem⟩
      exact ⟨c, (mem_noSlash c).1 hmem, rfl⟩
    · rintro ⟨c, hc, rfl⟩
      exact ⟨c, rfl, (mem_noSlash c).2 hc⟩
  | char c => exact says_char

theorem says_parts {ps : List Part} {t : List Char} (ht : '\n' ∉ t) :
    (seqAll (ps.map Part.regex)).Says t ↔ Means ps t := by
  rw [says_seqAll, Means]
  refine exists_congr fun ws => and_congr_right fun heq => ?_
  have hws : ∀ w ∈ ws, '\n' ∉ w := fun w hw hbreak => ht (heq ▸ List.mem_flatten.2 ⟨w, hw, hbreak⟩)
  clear heq
  rw [List.forall₂_map_left_iff]
  induction ps generalizing ws with
  | nil => rw [List.forall₂_nil_left_iff, List.forall₂_nil_left_iff]
  | cons p ps ih =>
    cases ws with
    | nil => simp
    | cons w ws =>
      obtain ⟨hw, hws⟩ := List.forall_mem_cons.1 hws
      rw [List.forall₂_cons, List.forall₂_cons]
      exact and_congr (says_regex hw) (ih ws hws)

/-! ## Line breaks -/

theorem newline_notMem_chars {t : Text} (h : lf ∉ t) : '\n' ∉ t.chars := by
  induction t using Text.rune_induction with
  | nil => exact List.not_mem_nil
  | spelled c b tail rest hspelled ih =>
    rw [Text.chars, Text.runes_spelled hspelled, List.map_cons, List.mem_cons, not_or]
    refine ⟨?_, ih fun hmem => h (List.mem_append_right _ hmem)⟩
    rintro rfl
    have hbytes : [lf] = b :: tail := hspelled.ofChar_eq
    rw [← hbytes] at h
    exact h List.mem_cons_self
  | stray b rest hstray ih =>
    rw [Text.chars, Text.runes_stray hstray, List.map_cons, List.mem_cons, not_or]
    exact ⟨by decide, ih fun hmem => h (List.mem_cons_of_mem _ hmem)⟩

theorem mem_of_mem_splitOn {sep b : UInt8} {t part : Text} (h : part ∈ List.splitOn sep t)
    (hb : b ∈ part) : b ∈ t := by
  induction t generalizing part with
  | nil =>
    rw [List.splitOn_nil, List.mem_singleton] at h
    rwa [h] at hb
  | cons c t ih =>
    rw [List.splitOn_cons_eq_if_modifyHead] at h
    split at h
    · obtain rfl | h := List.mem_cons.1 h
      · cases hb
      · exact List.mem_cons_of_mem _ (ih h hb)
    · cases hrest : List.splitOn sep t with
      | nil => exact absurd hrest (List.splitOn_ne_nil sep t)
      | cons first rest =>
        rw [hrest] at h ih
        obtain rfl | h := List.mem_cons.1 h
        · obtain rfl | hb := List.mem_cons.1 hb
          · exact List.mem_cons_self
          · exact List.mem_cons_of_mem _ (ih List.mem_cons_self hb)
        · exact List.mem_cons_of_mem _ (ih (List.mem_cons_of_mem _ h) hb)

theorem newline_notMem_base {path : Text} (h : lf ∉ path) : lf ∉ Path.base path := by
  rw [Path.base]
  split
  · decide
  · cases hlast : (Path.parts path).getLast? with
    | none => decide
    | some part =>
      have hmem := List.mem_of_getLast? hlast
      rw [Path.parts_eq, List.mem_filter] at hmem
      exact fun hbreak => h (mem_of_mem_splitOn hmem.1 hbreak)

/-! ## Globs -/

theorem exists_mapM_ok {ε α β : Type} {f : α → Except ε β} {R : α → β → Prop} {xs : List α}
    (h : ∀ x ∈ xs, ∃ y, f x = .ok y ∧ R x y) : ∃ ys, xs.mapM f = .ok ys ∧ List.Forall₂ R xs ys := by
  induction xs with
  | nil => exact ⟨[], rfl, .nil⟩
  | cons x xs ih =>
    obtain ⟨hx, hxs⟩ := List.forall_mem_cons.1 h
    obtain ⟨y, hy, hR⟩ := hx
    obtain ⟨ys, hys, hall⟩ := ih hxs
    refine ⟨y :: ys, ?_, .cons hR hall⟩
    rw [List.mapM_cons, hy, hys]
    rfl

theorem exists_compile_expression {t : Text} (h : 2 * t.chars.length + 3 ≤ Regex.Item.maxSize) :
    ∃ p, Pattern.compile (expression t) = .ok p ∧
      p.automaton = (anchored ((parts t).map Part.regex)).automaton := by
  rw [Pattern.compile, read_expression h]
  exact ⟨_, rfl, rfl⟩

/-- Every glob within the bounds of expressions, which leave room for 1 677 720 characters, can be
compiled. It selects the paths that it stands for, or whose names it stands for when it has no slash. -/
theorem compile_selects (sources : List Text)
    (hsize : ∀ s ∈ sources,
      2 * (Text.dropFront "./" s.trimSpace).chars.length + 3 ≤ Regex.Item.maxSize) :
    ∃ gs, compile sources = .ok gs ∧
      List.Forall₂ (fun source g => g.source = source ∧ ∀ path : Text, lf ∉ path →
          (g.selects path (Path.base path) = true ↔
            Means (parts (Text.dropFront "./" source))
              (if source.contains '/' then path else Path.base path).chars))
        ((sources.map Text.trimSpace).filter (!·.isEmpty)) gs := by
  refine exists_mapM_ok fun source hsource => ?_
  obtain ⟨s, hs, rfl⟩ := List.mem_map.1 (List.mem_of_mem_filter hsource)
  obtain ⟨pattern, hcompiled, hautomaton⟩ := exists_compile_expression (hsize s hs)
  rw [hcompiled]
  refine ⟨⟨s.trimSpace, pattern, s.trimSpace.contains '/'⟩, rfl, rfl, fun path hpath => ?_⟩
  have hplain : ∀ r ∈ (parts (Text.dropFront "./" s.trimSpace)).map Part.regex, r.plain = true := by
    intro r hr
    obtain ⟨p, -, rfl⟩ := List.mem_map.1 hr
    exact p.plain_regex
  have hbreak : lf ∉ (if s.trimSpace.contains '/' then path else Path.base path) := by
    split
    · exact hpath
    · exact newline_notMem_base hpath
  rw [← says_parts (newline_notMem_chars hbreak)]
  exact Pattern.matchesIn_anchored hplain hautomaton _

theorem compile_selects_brackets :
    (∀ s ∈ ([" ./src/**/[x]?.py "] : List Text),
      2 * (Text.dropFront "./" s.trimSpace).chars.length + 3 ≤ Regex.Item.maxSize) ∧
    ∃ g, compile [" ./src/**/[x]?.py "] = .ok [g] ∧ g.selects "src/a/b/[x]1.py" "[x]1.py" = true := by
  have hsize : ∀ s ∈ ([" ./src/**/[x]?.py "] : List Text),
      2 * (Text.dropFront "./" s.trimSpace).chars.length + 3 ≤ Regex.Item.maxSize := by decide
  refine ⟨hsize, ?_⟩
  obtain ⟨gs, hcompile, hgs⟩ := compile_selects [" ./src/**/[x]?.py "] hsize
  have hsources : (([" ./src/**/[x]?.py "] : List Text).map Text.trimSpace).filter (!·.isEmpty) =
      ["./src/**/[x]?.py"] := by decide
  rw [hsources] at hgs
  obtain _ | ⟨⟨-, hg⟩, hrest⟩ := hgs
  cases hrest
  refine ⟨_, hcompile, (hg "src/a/b/[x]1.py" (by decide)).2 ?_⟩
  have hparts : parts (Text.dropFront "./" "./src/**/[x]?.py") =
      [.char 's', .char 'r', .char 'c', .char '/', .directories, .char '[', .char 'x', .char ']', .one,
        .char '.', .char 'p', .char 'y'] := by decide
  have hpath : (Text.ofString "src/a/b/[x]1.py").chars =
      [['s'], ['r'], ['c'], ['/'], ['a', '/', 'b', '/'], ['['], ['x'], [']'], ['1'], ['.'], ['p'], ['y']].flatten := by
    decide
  rw [hparts]
  exact ⟨_, hpath, by simp [Part.Means]⟩

end Glob

end LiteralAudit
