import LiteralAudit.Proofs.Literal.Go.Cells
import LiteralAudit.Proofs.Literal.Go.Scanning

/-!
# What the scanner takes

Each step of the scanner takes cells from the front of those that are left (`Scanner.takes_next`). A
literal is made of all of them but the blanks before it (`Token.Spells`), and a directive stands in a
comment that opens with `//line` or `/*line` and takes effect behind it (`IsLineComment`).
-/

namespace LiteralAudit.Go

/-- A comment opens like one that renumbers lines. -/
def IsLineComment (comment : Text) : Prop :=
  Text.ofString "//line " <+: comment ∨ Text.ofString "/*line " <+: comment

/-- A directive of a comment: the comment ends where the directive takes effect, or a line break before. -/
def LineDirective.StandsIn (d : LineDirective) (size : Nat) (comment rest : List Cell) : Prop :=
  IsLineComment (spelling comment) ∧ offsetOf size rest ≤ d.offset

/-- What a step takes from the front of the cells. -/
structure Scanner.Takes (s : Scanner) (r : Option Token × Scanner × List Note) : Prop where
  size : r.2.1.size = s.size
  cells : r.2.1.cells <:+ s.cells
  token : ∀ t, r.1 = some t → t.tok.isValue = true →
    ∃ blanks written, s.cells = blanks ++ written ++ r.2.1.cells ∧ t.Spells s.size written r.2.1.cells
  directives : ∀ d ∈ r.2.1.directives, d ∈ s.directives ∨
    ∃ blanks comment, s.cells = blanks ++ comment ++ r.2.1.cells ∧ d.StandsIn s.size comment r.2.1.cells

/-- A step without a literal and without a comment. -/
theorem Scanner.Takes.of_suffix {s s' : Scanner} {t? : Option Token} {notes : List Note}
    (hsize : s'.size = s.size) (hcells : s'.cells <:+ s.cells) (hdirectives : s'.directives = s.directives)
    (ht : ∀ t, t? = some t → t.tok.isValue = false) : s.Takes (t?, s', notes) where
  size := hsize
  cells := hcells
  token t h hvalue := absurd hvalue (by simp [ht t h])
  directives d hd := .inl (hdirectives ▸ hd)

/-! ## Comments -/

theorem offset_of_readDirective {layout : Layout} {offset next : Nat} {text : Text} {d : LineDirective}
    (h : readDirective layout offset next text = .ok (some d)) : d.offset = next := by
  unfold readDirective at h
  extract_lets badLine at h
  split at h
  · cases h
  · cases h
  · split at h
    · split_ifs at h
      cases h
      rfl
    · split_ifs at h
      cases h
      rfl

/-- A comment adds a directive at most, and only one that opens like a directive. -/
theorem directives_afterComment (s : Scanner) (startsLine : Bool) (comment rest : List Cell) :
    ∀ d ∈ (s.afterComment startsLine comment rest).1.directives, d ∈ s.directives ∨
      Text.ofString "line " <+: (spelling comment).drop 2 ∧ offsetOf s.size rest ≤ d.offset := by
  unfold Scanner.afterComment
  extract_lets start next text isBlock next' text' s'
  split
  · next hline =>
    split
    · exact fun d hd => .inl hd
    · exact fun d hd => .inl hd
    · next d hread =>
      dsimp only
      split_ifs
      · intro e he
        obtain rfl | he := List.mem_cons.1 he
        · right
          have htext : text' <+: text := by
            unfold text'
            split_ifs
            · exact List.take_prefix ..
            · exact List.dropLast_prefix _
            · exact List.prefix_rfl
          have hword : Text.ofString "line " <+: text'.drop 2 := by
            obtain ⟨rest, hrest⟩ := Option.isSome_iff_exists.1 (Bool.and_eq_true_iff.1 hline).2
            exact ⟨rest, (Text.eq_append_of_dropFront? hrest).symm⟩
          refine ⟨hword.trans (htext.drop 2), ?_⟩
          rw [offset_of_readDirective hread]
          unfold next'
          split_ifs
          · exact Nat.le_succ _
          · exact Nat.le_refl _
        · exact .inl he
      · exact fun d hd => .inl hd
  · exact fun d hd => .inl hd

/-! ## One step -/

theorem Scanner.takes_next (s : Scanner) : s.Takes s.next := by
  have hmove := s.move_next
  generalize s.next = r at hmove
  cases hmove with
  | pendingBreak => exact .of_suffix rfl List.suffix_rfl rfl (by rintro t ⟨⟩; rfl)
  | lastBreak => exact .of_suffix rfl List.nil_suffix rfl (by rintro t ⟨⟩; rfl)
  | eof htok => exact .of_suffix rfl List.nil_suffix rfl (by rintro t ⟨⟩; rw [htok]; rfl)
  | openComment => exact .of_suffix rfl List.nil_suffix rfl nofun
  | @token t blanks written rest semi notes _ hsplit _ hread =>
    refine ⟨rfl, ⟨_, hsplit.symm⟩, ?_, fun d hd => .inl hd⟩
    rintro _ ⟨⟩ hvalue
    exact ⟨blanks, written, hsplit, hread.spells hvalue⟩
  | @comment blanks more rest first second _ _ _ _ hsplit hslash hopening =>
    refine ⟨rfl, ⟨_, hsplit.symm⟩, nofun, fun d hd => ?_⟩
    refine (directives_afterComment s _ _ _ d hd).imp_right ?_
    rintro ⟨hword, hoffset⟩
    refine ⟨blanks, first :: second :: more, hsplit, ?_, hoffset⟩
    rw [spelling_cons, spelling_cons, hslash] at hword ⊢
    rcases hopening with hopening | hopening <;> rw [hopening] at hword ⊢
    · exact .inl ((List.prefix_append_right_inj [('/' : UInt8), ('/' : UInt8)]).2 hword)
    · exact .inr ((List.prefix_append_right_inj [('/' : UInt8), ('*' : UInt8)]).2 hword)

end LiteralAudit.Go
