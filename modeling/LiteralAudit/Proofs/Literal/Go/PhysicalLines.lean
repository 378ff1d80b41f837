import LiteralAudit.Proofs.Literal.Go.SourceLiterals
import LiteralAudit.Proofs.Literal.Go.Taken

/-!
# Lines of literals

In a source that parses, each literal stands where its token says it does (`Token.StandsIn`). Its line is
counted from the start of the source (`physicalLine`), unless a directive stands before it: from there on
lines are counted from the number that the last directive gives (`lines_of_literals`). Directives come from
comments only that open with `//line` or `/*line`, so that without those all lines are physical.
-/

namespace LiteralAudit.Go

open Text (lf)

/-- The line of a place, counted from the start of the source. -/
def physicalLine (source : Text) (offset : Nat) : Nat := 1 + (source.take offset).count lf

/-- A token is written at a place of the source. A raw string leaves out its carriage returns. -/
def Token.StandsIn (t : Token) (source : Text) : Prop :=
  ∃ front written rest, source = front ++ written ++ rest ∧ written ≠ [] ∧
    t.start = front.length ∧ t.stop = (front ++ written).length ∧
    (t.text = written ∨
      written.head? = some (0x60 : UInt8) ∧ t.text = written.filter fun b => b != ('\r' : UInt8))

/-- The directive that numbers the line of a place. -/
def Layout.directive? (l : Layout) (offset : Nat) : Option LineDirective :=
  (l.directives.takeWhile (·.offset ≤ offset)).getLast?

/-! ## A whole run -/

/-- Literals are written by the cells of the source, and directives stand in its comments. -/
theorem Scanner.taken_run {whole front : List Cell} (fuel : Nat) (bad notes : List Note) {s : Scanner}
    (hwhole : whole = front ++ s.cells) :
    (∀ t ∈ (s.run fuel bad notes).1, t.tok.isValue = true →
      ∃ front written rest, whole = front ++ written ++ rest ∧ t.Spells s.size written rest) ∧
    ∀ d ∈ (s.run fuel bad notes).2.directives, d ∈ s.directives ∨
      ∃ front comment rest, whole = front ++ comment ++ rest ∧ d.StandsIn s.size comment rest := by
  induction fuel generalizing bad notes s front with
  | zero => exact ⟨nofun, fun d hd => .inl hd⟩
  | succ fuel ih =>
    have htakes := s.takes_next
    unfold Scanner.run
    rcases hnext : s.next with ⟨token?, s', more⟩
    rw [hnext] at htakes
    obtain ⟨hsize, ⟨taken, hcells⟩, htoken, hdirectives⟩ := htakes
    dsimp only at hsize hcells htoken hdirectives
    have hfirst : ∀ t, token? = some t → t.tok.isValue = true →
        ∃ front written rest, whole = front ++ written ++ rest ∧ t.Spells s.size written rest := by
      intro t ht hvalue
      obtain ⟨blanks, written, hsplit, hspells⟩ := htoken t ht hvalue
      exact ⟨front ++ blanks, written, _, by simp [hwhole, hsplit], hspells⟩
    have hmet : ∀ d ∈ s'.directives, d ∈ s.directives ∨
        ∃ front comment rest, whole = front ++ comment ++ rest ∧ d.StandsIn s.size comment rest := by
      intro d hd
      refine (hdirectives d hd).imp_right ?_
      rintro ⟨blanks, comment, hsplit, hstands⟩
      exact ⟨front ++ blanks, comment, _, by simp [hwhole, hsplit], hstands⟩
    have hrest : whole = front ++ taken ++ s'.cells := by rw [hwhole, ← hcells, List.append_assoc]
    have hlater (bad notes : List Note) := ih bad notes hrest
    rw [hsize] at hlater
    cases token? with
    | none =>
      obtain ⟨htokens, hlast⟩ := hlater bad (notes ++ more)
      exact ⟨htokens, fun d hd => (hlast d hd).elim (hmet d) .inr⟩
    | some t =>
      have hhead := hfirst t rfl
      dsimp only
      split
      · refine ⟨?_, hmet⟩
        intro u hu hvalue
        obtain rfl := List.mem_singleton.1 hu
        obtain ⟨front, written, rest, hsplit, hspells⟩ := hhead hvalue
        exact ⟨front, written, rest, hsplit, ⟨hspells.start, hspells.stop, hspells.nonempty, hspells.text⟩⟩
      · obtain ⟨htokens, hlast⟩ := hlater (bad.drop (bad.takeWhile (·.offset ≤ t.stop)).length) []
        refine ⟨?_, fun d hd => (hlast d hd).elim (hmet d) .inr⟩
        intro u hu hvalue
        obtain rfl | hu := List.mem_cons.1 hu
        · obtain ⟨front, written, rest, hsplit, hspells⟩ := hhead hvalue
          exact ⟨front, written, rest, hsplit, ⟨hspells.start, hspells.stop, hspells.nonempty, hspells.text⟩⟩
        · exact htokens u hu hvalue

/-- All bad characters have been met when the end of the file is reached. -/
theorem Scanner.bad_eq_nil_of_run {fuel : Nat} {bad notes : List Note} {s : Scanner}
    (hfuel : s.measure < fuel) (hbad : ∀ n ∈ bad, n.offset ≤ s.size)
    (hclean : ∀ t ∈ (s.run fuel bad notes).1, t.notes = []) : bad = [] := by
  induction fuel generalizing notes s with
  | zero => cases hfuel
  | succ fuel ih =>
    have hadvances := s.advances_next
    have hsize := s.takes_next.size
    unfold Scanner.run at hclean
    rcases hnext : s.next with ⟨token?, s', more⟩
    rw [hnext] at hadvances hclean hsize
    cases token? with
    | none =>
      have hlt := (hadvances.resolve_left (by simp)).1
      exact ih (by dsimp only at hlt; omega) (by rwa [← hsize] at hbad) hclean
    | some t =>
      dsimp only at hclean hadvances
      have hmet : bad.takeWhile (·.offset ≤ t.stop) = [] := by
        split at hclean <;> exact (List.append_eq_nil_iff.1 (hclean _ List.mem_cons_self)).1
      rcases hadvances with ⟨u, hu, heof, hstop⟩ | ⟨hlt, htoken⟩
      · cases hu
        rw [hstop] at hmet
        cases bad with
        | nil => rfl
        | cons n bad => simp [hbad n List.mem_cons_self] at hmet
      · have htok := (htoken t rfl).1
        rw [if_neg (by simpa using htok), hmet] at hclean
        exact ih (by dsimp only at hlt; omega) (by rwa [← hsize] at hbad) fun u hu => hclean u (List.mem_cons_of_mem _ hu)

/-! ## Sources without notes -/

theorem badCharactersFrom_cons (k : Nat) (r : Rune) (rs : List Rune) :
    (∃ n : Note, n.offset = k ∧ badCharactersFrom k (r :: rs) = n :: badCharactersFrom (k + r.width) rs) ∨
      r.isStray = false ∧ badCharactersFrom k (r :: rs) = badCharactersFrom (k + r.width) rs := by
  rw [badCharactersFrom]
  split_ifs with hnul hstray hmark
  · exact .inl ⟨_, rfl, rfl⟩
  · exact .inl ⟨_, rfl, rfl⟩
  · exact .inl ⟨_, rfl, rfl⟩
  · exact .inr ⟨by simpa using hstray, rfl⟩

theorem offset_le_of_mem_badCharacters {t : Text} {k : Nat} {n : Note}
    (h : n ∈ badCharactersFrom k t.runes) : n.offset ≤ k + t.length := by
  induction t using Text.rune_induction generalizing k with
  | nil => cases h
  | spelled c b tail rest hspelled ih =>
    rw [Text.runes_spelled hspelled] at h
    rw [List.length_append, ← Nat.add_assoc]
    rcases badCharactersFrom_cons k ⟨c, tail.length + 1⟩ rest.runes with ⟨m, hm, heq⟩ | ⟨-, heq⟩
    · rw [heq] at h
      obtain rfl | h := List.mem_cons.1 h
      · omega
      · exact ih h
    · rw [heq] at h
      exact ih h
  | stray b rest hstray ih =>
    rw [Text.runes_stray hstray] at h
    rw [List.length_cons, Nat.add_comm rest.length, ← Nat.add_assoc]
    rcases badCharactersFrom_cons k Rune.stray rest.runes with ⟨m, hm, heq⟩ | ⟨-, heq⟩
    · rw [heq] at h
      obtain rfl | h := List.mem_cons.1 h
      · omega
      · exact ih h
    · rw [heq] at h
      exact ih h

theorem all_of_badCharacters {k : Nat} {rs : List Rune} (h : badCharactersFrom k rs = []) :
    rs.all (!·.isStray) = true := by
  induction rs generalizing k with
  | nil => rfl
  | cons r rs ih =>
    rcases badCharactersFrom_cons k r rs with ⟨n, -, heq⟩ | ⟨hstray, heq⟩
    · rw [heq] at h
      cases h
    · rw [List.all_cons, hstray, ih (heq.symm.trans h)]
      rfl

/-- What a scan without notes says about its source. -/
structure Scanned (source : Text) (tokens : List Token) (layout : Layout) : Prop where
  isUtf8 : source.isUtf8 = true
  lineStarts : layout.lineStarts = lineStartsOf source.length (cellsOf source)
  tokens : ∀ t ∈ tokens, t.tok.isValue = true → ∃ front written rest,
    cellsOf source = front ++ written ++ rest ∧ t.Spells source.length written rest
  directives : ∀ d ∈ layout.directives, ∃ front comment rest,
    cellsOf source = front ++ comment ++ rest ∧ d.StandsIn source.length comment rest

theorem scanned_of_clean {path source : Text} (hclean : ∀ t ∈ (scan path source).1, t.notes = []) :
    Scanned source (scan path source).1 (scan path source).2 := by
  obtain ⟨s, bad, fuel, hscan, hfuel, hsize, hnone, hcases⟩ := exists_run_of_scan path source
  rw [hscan] at hclean ⊢
  have hbad : bad = [] := by
    refine Scanner.bad_eq_nil_of_run hfuel ?_ hclean
    rw [hsize]
    rcases hcases with ⟨n, hn, rfl⟩ | ⟨rfl, -⟩
    · intro m hm
      rw [List.mem_singleton.1 hm, hn]
      exact Nat.zero_le _
    · intro n hn
      simpa using offset_le_of_mem_badCharacters hn
  rcases hcases with ⟨n, -, hcons⟩ | ⟨hcharacters, ⟨front, hcells⟩, hstarts⟩
  · rw [hbad] at hcons
    cases hcons
  obtain ⟨htokens, hdirectives⟩ :=
    Scanner.taken_run fuel bad [] hcells.symm
  rw [hsize] at htokens hdirectives
  refine ⟨all_of_badCharacters (hcharacters.symm.trans hbad), hstarts, htokens, fun d hd => ?_⟩
  refine (hdirectives d (List.mem_reverse.1 hd)).resolve_left ?_
  rw [hnone]
  exact List.not_mem_nil

/-! ## Cells and bytes -/

/-- Bytes that are left out are those of the character that is left out. -/
theorem spelling_filter (cs : List Cell) :
    spelling (cs.filter fun c => c.char != '\r') = (spelling cs).filter fun b => b != ('\r' : UInt8) := by
  induction cs with
  | nil => rfl
  | cons c cs ih =>
    rw [spelling_cons, List.filter_append, ← ih, List.filter_cons]
    by_cases hc : c.char = '\r'
    · rw [hc]
      rfl
    · have hkept : (Text.ofChar c.char).filter (fun b => b != ('\r' : UInt8)) = Text.ofChar c.char :=
        List.filter_eq_self.2 fun b hb => by simpa using ne_of_mem_ofChar (by decide) hc hb
      rw [hkept, if_pos (by simpa using hc), spelling_cons]

variable {source : Text} {tokens : List Token} {layout : Layout}

theorem Scanned.standsIn (h : Scanned source tokens layout) {t : Token} (ht : t ∈ tokens)
    (hvalue : t.tok.isValue = true) : t.StandsIn source := by
  obtain ⟨front, written, rest, hcells, hstart, hstop, hnonempty, htext⟩ := h.tokens t ht hvalue
  refine ⟨spelling front, spelling written, spelling rest, ?_, ?_, ?_, ?_, ?_⟩
  · rw [← spelling_append, ← spelling_append, ← hcells, spelling_cellsOf h.isUtf8]
  · obtain ⟨c, cs, rfl⟩ := List.exists_cons_of_ne_nil hnonempty
    obtain ⟨b, tail, hbytes⟩ := Text.exists_ofChar c.char
    rw [spelling_cons, hbytes]
    exact List.cons_ne_nil _ _
  · rw [hstart]
    exact offsetOf_append h.isUtf8 (hcells.trans (List.append_assoc ..))
  · rw [hstop, ← spelling_append]
    exact offsetOf_append h.isUtf8 hcells
  · refine htext.imp_right ?_
    rintro ⟨hhead, htext⟩
    obtain ⟨c, cs, rfl⟩ := List.exists_cons_of_ne_nil hnonempty
    have hc : c.char = Char.ofNat 0x60 := Option.some.inj hhead
    refine ⟨?_, htext.trans (spelling_filter _)⟩
    rw [spelling_cons, hc]
    rfl

theorem Scanned.directive_standsIn (h : Scanned source tokens layout) {d : LineDirective}
    (hd : d ∈ layout.directives) : ∃ front comment rest, source = front ++ comment ++ rest ∧
      IsLineComment comment ∧ (front ++ comment).length ≤ d.offset := by
  obtain ⟨front, comment, rest, hcells, hline, hoffset⟩ := h.directives d hd
  refine ⟨spelling front, spelling comment, spelling rest, ?_, hline, ?_⟩
  · rw [← spelling_append, ← spelling_append, ← hcells, spelling_cellsOf h.isUtf8]
  · rw [← spelling_append, ← offsetOf_append h.isUtf8 hcells]
    exact hoffset

/-! ## Lines -/

theorem Scanned.lineOf_eq (h : Scanned source tokens layout) {o : Nat} (ho : o < source.length) :
    (layout.lineOf o).1 = physicalLine source o := by
  rw [Layout.lineOf, h.lineStarts]
  exact length_takeWhile_lineStarts ho

theorem physicalLine_mono (source : Text) {o o' : Nat} (h : o ≤ o') : physicalLine source o ≤ physicalLine source o' :=
  Nat.add_le_add_left ((List.take_sublist_take_left h).count_le _) 1

/-- The line that is told of a place is the physical one, unless the last directive before it says
otherwise of its own. -/
theorem Scanned.line_position (h : Scanned source tokens layout) {o : Nat} (ho : o < source.length) :
    (layout.position o).line = physicalLine source o ↔
      ∀ d ∈ layout.directive? o, d.line = physicalLine source d.offset := by
  have hline := h.lineOf_eq ho
  unfold Layout.position Layout.directive?
  rcases hlineOf : layout.lineOf o with ⟨line, start⟩
  rw [hlineOf] at hline
  obtain rfl : line = physicalLine source o := hline
  dsimp only
  cases hlast : (layout.directives.takeWhile (·.offset ≤ o)).getLast? with
  | none => simp
  | some d =>
    have hle : d.offset ≤ o := by simpa using List.mem_takeWhile_imp (List.mem_of_getLast? hlast)
    have hmono := physicalLine_mono source hle
    simp only [h.lineOf_eq (hle.trans_lt ho), Option.mem_some_iff, forall_eq']
    omega

theorem Token.StandsIn.start_lt {t : Token} (h : t.StandsIn source) : t.start < source.length := by
  obtain ⟨front, written, rest, rfl, hne, hstart, -⟩ := h
  have hpos := List.length_pos_iff.2 hne
  rw [hstart, List.length_append, List.length_append]
  omega

theorem layout_of_parse {path : Text} {trees : List Tree} (h : parse path source = .ok (trees, layout)) :
    layout = (scan path source).2 := by
  unfold parse at h
  dsimp -zeta only at h
  extract_lets fuel start start' at h
  split at h
  · exact (Prod.mk.inj (Except.ok.inj h)).2.symm
  · cases h

/-- The literals of a source and the tokens that they come from: each stands where its token says, and has
the line of that place, as long as the last directive before it gives the line that it stands on. A
directive stands in a comment that opens like one. -/
theorem lines_of_literals {path : Text} {ls : List Literal} (h : literals path source = .ok ls) :
    List.Forall₂ (fun t l => t.Denotes l ∧ t.StandsIn source ∧
        (l.line = (physicalLine source t.start : Int) ↔
          ∀ d ∈ (scan path source).2.directive? t.start, d.line = physicalLine source d.offset))
      (literalTokens (scan path source).1) ls ∧
    ∀ d ∈ (scan path source).2.directives, ∃ front comment rest, source = front ++ comment ++ rest ∧
      IsLineComment comment ∧ (front ++ comment).length ≤ d.offset := by
  unfold literals at h
  split at h
  · cases h
  · next trees layout hparse =>
    cases h
    obtain rfl := layout_of_parse hparse
    have hscanned := scanned_of_clean (parse_spec hparse).1
    refine ⟨?_, fun d hd => hscanned.directive_standsIn hd⟩
    rw [List.forall₂_map_right_iff]
    refine ((List.forall₂_and_left _ _).2 ⟨fun t ht => mem_of_mem_literalTokensFrom ht,
      forall₂_listed_of_parse hparse⟩).imp ?_
    rintro t entry ⟨⟨hmem, hvalue⟩, hlisted⟩
    have hstands := hscanned.standsIn hmem hvalue
    have hplace : t.start = entry.1 := by
      obtain ⟨value, -, hentry⟩ := Option.map_eq_some_iff.1 hlisted
      exact congrArg Prod.fst hentry
    refine ⟨t.denotes_of_listed hlisted rfl, hstands, ?_⟩
    dsimp only
    rw [← hplace]
    exact hscanned.line_position hstands.start_lt

/-- A directive between two literals. -/
def renumbered : Text := "package p\nvar a = 1\n//line x.go:100\nvar b = \"s\"\n"

/-- What the literals say, and the lines that they have. -/
def renumberedLines : List (Text × Int) := [("1", 2), ("s", 100)]

theorem lines_of_renumbered : ∃ ls, literals "a.go" renumbered = .ok ls ∧
    List.Forall₂ (fun t l => t.Denotes l ∧ t.StandsIn renumbered ∧
        (l.line = (physicalLine renumbered t.start : Int) ↔
          ∀ d ∈ (scan "a.go" renumbered).2.directive? t.start, d.line = physicalLine renumbered d.offset))
      (literalTokens (scan "a.go" renumbered).1) ls ∧
    ls.map (fun l => (l.value, l.line)) = renumberedLines := by
  have hvalues : (literals "a.go" renumbered).toOption.map (·.map fun l => (l.value, l.line)) =
      some renumberedLines := by
    decide +kernel
  cases hls : literals "a.go" renumbered with
  | error e =>
    rw [hls] at hvalues
    cases hvalues
  | ok ls =>
    rw [hls] at hvalues
    exact ⟨ls, rfl, (lines_of_literals hls).1, Option.some.inj hvalues⟩

/-- The string stands on the fourth line of the file, and is told to be on the hundredth. -/
theorem line_of_renumbered : ¬ ∀ path source ls, literals path source = .ok ls →
    List.Forall₂ (fun t l => l.line = (physicalLine source t.start : Int))
      (literalTokens (scan path source).1) ls := by
  intro h
  have hlines : (literals "a.go" renumbered).toOption.map (·.map (·.line)) = some [2, 100] := by
    decide +kernel
  have hplaces : (literalTokens (scan "a.go" renumbered).1).map
      (fun t => (physicalLine renumbered t.start : Int)) = [2, 4] := by
    decide +kernel
  cases hls : literals "a.go" renumbered with
  | error e =>
    rw [hls] at hlines
    cases hlines
  | ok ls =>
    rw [hls] at hlines
    have hsame : ls.map (·.line) = (literalTokens (scan "a.go" renumbered).1).map
        (fun t => (physicalLine renumbered t.start : Int)) := by
      rw [← List.forall₂_eq_eq_eq, List.forall₂_map_left_iff, List.forall₂_map_right_iff]
      exact (h _ _ _ hls).flip
    rw [hplaces] at hsame
    cases hsame.symm.trans (Option.some.inj hlines)

end LiteralAudit.Go
