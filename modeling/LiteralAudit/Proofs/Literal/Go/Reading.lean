import LiteralAudit.Proofs.Literal.Go.LiteralTokens

/-!
# What a parser has read

A run **leads to** a condition if it ends in a state that meets it, or stops with a complaint
(`Leads`). As soon as there is a complaint nothing is asked of a state any more: `Read` says of a state
**without complaints** which tokens were read since an origin, by the context that they leave and by
the literals of the program among them. So a step that complains leads to any `Read`
(`Lost.read`), and a parser is described by what it does to a source that it accepts.

`Stands` is `Read` where neither `struct` nor `import` was the last keyword, which holds between any two
parsers but those of fields and of imports.
-/

namespace LiteralAudit.Go

deriving instance ReflBEq, LawfulBEq for Tok

variable {α β : Type}

/-! ## Runs -/

/-- The run of a parser ends as the condition says, or stops with a complaint. -/
def Leads (p : Parse α) (s : State) (Q : α → State → Prop) : Prop :=
  match p s with
  | .ok a s => Q a s
  | .error _ s => s.complaints ≠ []

namespace Leads

variable {p : Parse α} {s : State} {P Q : α → State → Prop}

theorem mono (h : Leads p s P) (hPQ : ∀ a s, P a s → Q a s) : Leads p s Q := by
  unfold Leads at *
  split at h
  · exact hPQ _ _ h
  · exact h

theorem and (hP : Leads p s P) (hQ : Leads p s Q) : Leads p s fun a s => P a s ∧ Q a s := by
  unfold Leads at *
  split at hP
  · next a s' hp =>
    rw [hp] at hQ
    exact ⟨hP, hQ⟩
  · exact hP

theorem bind {f : α → Parse β} {R : β → State → Prop} (h : Leads p s P)
    (hf : ∀ a s, P a s → Leads (f a) s R) : Leads (p >>= f) s R := by
  unfold Leads at *
  change match EStateM.bind p f s with | .ok a s => R a s | .error _ s => s.complaints ≠ []
  unfold EStateM.bind
  split at h
  · next a s' hp => rw [hp]; exact hf a s' h
  · next e s' hp => rw [hp]; exact h

theorem map_bind {γ : Type} {f : α → β} {q : β → Parse γ} {R : γ → State → Prop} (h : Leads p s P)
    (hq : ∀ a s, P a s → Leads (q (f a)) s R) : Leads (f <$> p >>= q) s R := by
  have hmap : Leads (f <$> p) s fun b s => ∃ a, b = f a ∧ P a s :=
    h.bind fun a s ha => ⟨a, rfl, ha⟩
  refine hmap.bind ?_
  rintro _ s ⟨a, rfl, ha⟩
  exact hq a s ha

theorem ite {c : Prop} [Decidable c] {q : Parse α} (hp : c → Leads p s Q) (hq : ¬c → Leads q s Q) :
    Leads (if c then p else q) s Q :=
  iteInduction (motive := fun p => Leads p s Q) hp hq

theorem inside (h : Leads p { s with level := s.level + 1 } Q)
    (hQ : ∀ a s n, Q a s → Q a { s with level := n }) :
    Leads (Parse.inside p) s Q := h.bind fun a s ha => hQ a s _ ha

theorem discard {R : State → Prop} (h : Leads p s fun _ => R) :
    Leads (discard p) s fun _ => R := h.bind fun _ _ h => h

end Leads

/-! Looking at the state does not change it. -/

section Peeks

variable {s : State} {Q : β → State → Prop}

theorem leads_get {f : State → Parse β} : Leads (get >>= f) s Q ↔ Leads (f s) s Q := Iff.rfl

theorem leads_token {f : Token → Parse β} :
    Leads (Parse.token >>= f) s Q ↔ Leads (f s.current) s Q := Iff.rfl

theorem leads_tok {f : Tok → Parse β} :
    Leads (Parse.tok >>= f) s Q ↔ Leads (f s.current.tok) s Q := Iff.rfl

theorem leads_place {f : Nat → Parse β} :
    Leads (Parse.place >>= f) s Q ↔ Leads (f s.current.start) s Q := Iff.rfl

theorem leads_atOp {op : String} {f : Bool → Parse β} :
    Leads (Parse.atOp op >>= f) s Q ↔ Leads (f (s.current.tok == .op op)) s Q := Iff.rfl

theorem leads_atKeyword {k : String} {f : Bool → Parse β} :
    Leads (Parse.atKeyword k >>= f) s Q ↔ Leads (f (s.current.tok == .keyword k)) s Q := Iff.rfl

theorem leads_atEnd {f : Bool → Parse β} :
    Leads (Parse.atEnd >>= f) s Q ↔ Leads (f (s.current.tok == .eof)) s Q := Iff.rfl

end Peeks

/-! ## What was read -/

/-- Only the last token is the end of the file. -/
def EndsInEof : List Token → Prop
  | [] => False
  | [t] => t.tok = .eof
  | t :: u :: rest => t.tok ≠ .eof ∧ EndsInEof (u :: rest)

/-- Where reading starts: the tokens from there on, and the context of the first. -/
structure Origin where
  tokens : List Token
  context : Context := {}

/-- The tokens up to those left were read without a complaint. They leave the context, and the literals
among them are the leaves. -/
structure Reached (o : Origin) (c : Context) (ls : List Leaf) (left : List Token) : Prop where
  ends : EndsInEof left
  noted : ∀ t ∈ left.head?, t.notes = []
  split : ∃ read, o.tokens = read ++ left ∧ (∀ t ∈ read, t.notes = []) ∧
    o.context.through read = c ∧ (literalTokensFrom o.context read).map Token.leaf = ls

/-- If nothing is wrong so far, the tokens were read as said. -/
def Read (o : Origin) (c : Context) (ls : List Leaf) (s : State) : Prop :=
  s.complaints = [] → Reached o c ls s.tokens

/-- What was read where fields and imports are told by the brackets alone. -/
def Stands (o : Origin) (k : List Bool) (ls : List Leaf) (s : State) : Prop := Read o ⟨k, .other⟩ ls s

/-- Something is wrong. -/
def Lost (s : State) : Prop := s.complaints ≠ []

variable {o : Origin} {c : Context} {k : List Bool} {ls : List Leaf} {s : State}

theorem Lost.read (h : Lost s) : Read o c ls s := fun hs => absurd hs h

theorem Lost.stands (h : Lost s) : Stands o k ls s := h.read

/-- What follows may be told from here on. -/
theorem Read.rebase (h : Read o c ls s) : Read ⟨s.tokens, c⟩ c [] s := fun hclean =>
  ⟨(h hclean).ends, (h hclean).noted, [], rfl, nofun, rfl, rfl⟩

/-- No token comes back. -/
theorem Read.length_le {tokens : List Token} {c₀ : Context} (h : Read ⟨tokens, c₀⟩ c ls s)
    (hclean : s.complaints = []) : s.tokens.length ≤ tokens.length := by
  obtain ⟨read, rfl, -⟩ := (h hclean).split
  simp

/-- An origin from which nothing is ever read: what is said of every origin tells that something which
is wrong stays so. -/
def Origin.nowhere : Origin := ⟨[], {}⟩

theorem Stands.lost (h : Stands .nowhere k ls s) : Lost s := by
  intro hclean
  obtain ⟨hends, -, read, htokens, -⟩ := h hclean
  rw [(List.append_eq_nil_iff.1 htokens.symm).2] at hends
  exact hends

theorem Stands.congr {ls' : List Leaf} (h : Stands o k ls s) (hls : ls = ls') : Stands o k ls' s :=
  hls ▸ h

/-! ## Tokens -/

theorem Context.through_concat (c : Context) (ts : List Token) (t : Token) :
    c.through (ts ++ [t]) = (c.through ts).after t.tok := by
  rw [through, through, List.foldl_append]
  rfl

/-- One more token is read, and nothing is wrong before the next one. -/
theorem Reached.step {t u : Token} {rest : List Token} (h : Reached o c ls (t :: u :: rest))
    (hu : u.notes = []) :
    Reached o (c.after t.tok) (ls ++ if c.keeps t.tok then [t.leaf] else []) (u :: rest) := by
  obtain ⟨hends, hnoted, read, htokens, hread, hcontext, hleaves⟩ := h
  refine ⟨hends.2, by simpa using hu, read ++ [t], by simp [htokens], ?_, ?_, ?_⟩
  · intro v hv
    rcases List.mem_append.1 hv with hv | hv
    · exact hread v hv
    · rw [List.mem_singleton.1 hv]
      exact hnoted t rfl
  · rw [Context.through_concat, hcontext]
  · rw [literalTokensFrom_append, List.map_append, hleaves, hcontext, literalTokensFrom_cons]
    split <;> rfl

/-- Where nothing is wrong, there is a token behind each but the end of the file. -/
theorem Reached.exists_cons (h : Reached o c ls s.tokens) (ht : s.current.tok ≠ .eof) :
    ∃ t u rest, s.tokens = t :: u :: rest := by
  have hends := h.ends
  unfold State.current at ht
  match hs : s.tokens with
  | [] =>
    rw [hs] at hends
    exact hends.elim
  | [t] =>
    rw [hs] at hends ht
    exact absurd hends ht
  | t :: u :: rest => exact ⟨t, u, rest, rfl⟩

theorem clean_of_next (hclean : s.next.complaints = []) : s.complaints = [] := by
  unfold State.next at hclean
  split at hclean
  · exact (List.append_eq_nil_iff.1 hclean).2
  · exact hclean

theorem Lost.next (h : Lost s) : Leads Parse.next s fun _ => Lost :=
  fun hclean => h (clean_of_next hclean)

theorem Read.next (h : Read o c ls s) (ht : s.current.tok ≠ .eof) :
    Leads Parse.next s fun _ =>
      Read o (c.after s.current.tok)
        (ls ++ if c.keeps s.current.tok then [s.current.leaf] else []) := by
  change Read _ _ _ s.next
  intro hclean
  have hreached := h (clean_of_next hclean)
  obtain ⟨t, u, rest, hs⟩ := hreached.exists_cons ht
  simp only [State.next, State.current, hs] at hclean hreached ⊢
  have hu : u.notes = [] := by
    have hnotes := (List.append_eq_nil_iff.1 hclean).1
    rwa [List.reverse_eq_nil_iff, List.map_eq_nil_iff] at hnotes
  exact hreached.step hu

/-- Passing a token leaves fewer. -/
theorem Read.next_shortens (h : Read o c ls s) (ht : s.current.tok ≠ .eof) :
    Leads Parse.next s fun _ s' => s'.complaints = [] → s'.tokens.length < s.tokens.length := by
  change s.next.complaints = [] → s.next.tokens.length < s.tokens.length
  intro hclean
  obtain ⟨t, u, rest, hs⟩ := (h (clean_of_next hclean)).exists_cons ht
  simp [State.next, State.record, hs]

/-! ## Complaints -/

theorem leads_error (offset : Nat) (f : Fault) : Leads (Parse.error offset f) s fun _ => Lost := by
  unfold Parse.error
  rw [leads_get]
  dsimp only
  split
  · next hlast =>
    intro hclean
    rw [hclean] at hlast
    cases hlast
  · split
    · next hmany =>
      intro hclean
      rw [hclean] at hmany
      cases hmany
    · intro hclean
      cases hclean

theorem leads_expected (offset : Nat) (what : String) :
    Leads (Parse.expected offset what) s fun _ => Lost := by
  unfold Parse.expected
  rw [leads_token]
  exact leads_error ..

theorem leads_tooDeep {Q : α → State → Prop} : Leads Parse.tooDeep s Q := by
  unfold Parse.tooDeep
  rw [leads_place]
  exact (leads_error ..).bind fun _ _ h => h

/-- Skipping tokens does not put anything right. -/
theorem Lost.advanceState (stops : Tok → Bool) (fuel : List Token) (h : Lost s) :
    Lost (Parse.advanceState stops fuel s) := by
  induction fuel generalizing s with
  | nil => exact h
  | cons _ rest ih =>
    rw [Parse.advanceState]
    split_ifs
    · exact h
    · exact ih h.next
    · exact h
    · exact h
    · exact ih h.next

theorem Lost.advance (h : Lost s) (stops : Tok → Bool) :
    Leads (Parse.advance stops) s fun _ => Lost := h.advanceState stops s.tokens

/-! ## Tokens that are no literals -/

/-- A token is passed, or another one complained about. -/
theorem Read.expect (h : Read o c ls s) (t : Tok) (hv : t.isValue = false)
    (hend : t ≠ .eof) :
    Leads (Parse.expect t) s fun _ => Read o (c.after t) ls := by
  unfold Parse.expect
  rw [leads_place, leads_tok]
  extract_lets rest
  split
  · refine (leads_expected ..).bind fun _ s hlost => ?_
    exact hlost.next.bind fun _ s hlost => hlost.read
  · next ht =>
    have ht : s.current.tok = t := by simpa using ht
    refine (h.next (ht ▸ hend)).bind fun _ s h => ?_
    rw [ht, Context.keeps, hv] at h
    exact List.append_nil ls ▸ h

theorem Read.expect_shortens (h : Read o c ls s) (t : Tok) (hend : t ≠ .eof) :
    Leads (Parse.expect t) s fun _ s' => s'.complaints = [] → s'.tokens.length < s.tokens.length := by
  unfold Parse.expect
  rw [leads_place, leads_tok]
  extract_lets rest
  split
  · refine (leads_expected ..).bind fun _ s hlost => ?_
    exact hlost.next.bind fun _ s hlost hclean => absurd hclean hlost
  · next ht =>
    have ht : s.current.tok = t := by simpa using ht
    exact (h.next_shortens (ht ▸ hend)).bind fun _ s hshort => hshort

namespace Tok

/-- The token is neither a literal of the program nor a keyword that marks brackets. -/
def isQuiet : Tok → Bool
  | .string | .int | .float | .eof => false
  | .keyword k => k != "struct" && k != "import"
  | _ => true

/-- The brackets around what follows a token, if no keyword marks it. -/
def nest (t : Tok) (k : List Bool) : List Bool :=
  match t with
  | .op s =>
    if s == "(" || s == "\x7b" || s == "[" then false :: k
    else if s == ")" || s == "]" || s == "\x7d" then k.tail
    else k
  | _ => k

variable {t : Tok}

theorem isValue_of_isQuiet (ht : t.isQuiet) : t.isValue = false := by
  cases t <;> first | rfl | cases ht

theorem ne_eof_of_isQuiet (ht : t.isQuiet) : t ≠ .eof := by
  rintro rfl
  cases ht

theorem after_of_isQuiet (ht : t.isQuiet) :
    (⟨k, .other⟩ : Context).after t = ⟨t.nest k, .other⟩ := by
  cases t with
  | op s =>
    unfold Context.after Tok.nest
    grind
  | keyword w =>
    simp only [isQuiet, Bool.and_eq_true, bne_iff_ne, ne_eq] at ht
    simp [Context.after, nest, ht.1, ht.2]
  | _ => rfl

end Tok

namespace Stands

/-- The current token, which is of the given kind, is passed. -/
theorem next {t : Tok} (h : Stands o k ls s) (ht : s.current.tok = t) (hq : t.isQuiet) :
    Leads Parse.next s fun _ => Stands o (t.nest k) ls := by
  refine (Read.next h (ht ▸ Tok.ne_eof_of_isQuiet hq)).mono fun _ s h => ?_
  rw [ht, Tok.after_of_isQuiet hq, Context.keeps, Tok.isValue_of_isQuiet hq] at h
  exact Stands.congr h (List.append_nil _)

/-- A token is passed that may have been complained about. -/
theorem pass {t : Tok} (h : Stands o k ls s) (ht : s.current.tok = t ∨ Lost s)
    (hq : t.isQuiet) : Leads Parse.next s fun _ => Stands o (t.nest k) ls := by
  rcases ht with ht | hlost
  · exact h.next ht hq
  · exact hlost.next.mono fun _ _ hlost => hlost.stands

theorem expect (h : Stands o k ls s) (t : Tok) (hq : t.isQuiet) :
    Leads (Parse.expect t) s fun _ => Stands o (t.nest k) ls := by
  have hread := Read.expect h t (Tok.isValue_of_isQuiet hq) (Tok.ne_eof_of_isQuiet hq)
  rwa [Tok.after_of_isQuiet hq] at hread

theorem expectOp (h : Stands o k ls s) (op : String) :
    Leads (Parse.expectOp op) s fun _ => Stands o ((Tok.op op).nest k) ls := h.expect (.op op) rfl

theorem expectKeyword (h : Stands o k ls s) (w : String) (hq : (Tok.keyword w).isQuiet) :
    Leads (Parse.expectKeyword w) s fun _ => Stands o k ls := h.expect (.keyword w) hq

theorem expectClosing (h : Stands o k ls s) (op list : String) :
    Leads (Parse.expectClosing op list) s fun _ => Stands o ((Tok.op op).nest k) ls := by
  unfold Parse.expectClosing
  rw [leads_token]
  extract_lets rest
  split
  · refine (leads_error ..).bind fun _ s hlost => ?_
    refine hlost.next.bind fun _ s hlost => ?_
    exact (hlost.stands.expectOp op).discard
  · exact (h.expectOp op).discard

/-- Where another element follows there is a comma, or one is missing. -/
theorem atComma (h : Stands o k ls s) (list follow : String) :
    Leads (Parse.atComma list follow) s fun more s =>
      Stands o k ls s ∧ (more → s.current.tok = .op "," ∨ Lost s) := by
  unfold Parse.atComma
  rw [leads_token]
  split
  · next ht => exact ⟨h, fun _ => .inl (eq_of_beq ht)⟩
  · split
    · exact ⟨h, fun hmore => by cases hmore⟩
    · refine (leads_error ..).bind fun _ s hlost => ?_
      exact ⟨hlost.stands, fun _ => .inr hlost⟩

theorem expectSemicolon (h : Stands o k ls s) :
    Leads Parse.expectSemicolon s fun _ => Stands o k ls := by
  unfold Parse.expectSemicolon
  rw [leads_token]
  split
  · exact h
  · split
    · refine (leads_expected ..).bind fun _ s hlost => ?_
      exact hlost.next.mono fun _ _ hlost => hlost.stands
    · split
      · next ht => exact h.next (eq_of_beq ht) rfl
      · refine (leads_expected ..).bind fun _ s hlost => ?_
        exact (hlost.advance _).mono fun _ _ hlost => hlost.stands

/-! Levels, modes and depths have no part in what was read. -/

theorem enter (h : Stands o k ls s) : Leads Parse.enter s fun _ => Stands o k ls := by
  unfold Parse.enter
  change Leads (do if (← get).nesting > Parse.nestingLimit then Parse.tooDeep)
    { s with nesting := s.nesting + 1 } _
  rw [leads_get]
  split
  · exact leads_tooDeep
  · exact h

theorem leave (h : Stands o k ls s) (levels : Nat) :
    Leads (Parse.leave levels) s fun _ => Stands o k ls := h

variable {p : Parse α} {Q : α → State → Prop}

theorem nested (h : Stands o k ls s) (hp : ∀ {s}, Stands o k ls s → Leads p s Q)
    (hQ : ∀ a s n, Q a s → Q a { s with nesting := n }) :
    Leads (Parse.nested p) s Q := by
  unfold Parse.nested
  refine h.enter.bind fun _ s h => ?_
  exact (hp h).bind fun a s ha => hQ a s _ ha

theorem inside (h : Stands o k ls s) (hp : ∀ {s}, Stands o k ls s → Leads p s Q)
    (hQ : ∀ a s n, Q a s → Q a { s with level := n }) :
    Leads (Parse.inside p) s Q := by
  have hin : Stands o k ls { s with level := s.level + 1 } := h
  exact (hp hin).inside hQ

theorem asHeader (h : Stands o k ls s) (hp : ∀ {s}, Stands o k ls s → Leads p s Q)
    (hQ : ∀ a s n, Q a s → Q a { s with level := n }) :
    Leads (Parse.asHeader p) s Q := by
  have hin : Stands o k ls { s with level := -1 } := h
  exact (hp hin).bind fun a s ha => hQ a s _ ha

theorem withRhs (h : Stands o k ls s) (rhs : Bool) (hp : ∀ {s}, Stands o k ls s → Leads p s Q)
    (hQ : ∀ a s b, Q a s → Q a { s with inRhs := b }) :
    Leads (Parse.withRhs rhs p) s Q := by
  have hin : Stands o k ls { s with inRhs := rhs } := h
  exact (hp hin).bind fun a s ha => hQ a s _ ha

/-! Loops keep what one repetition keeps. -/

variable {f : α → List Leaf}

theorem whileTok {continues : Tok → Bool} {fuel : Nat} (h : Stands o k ls s)
    (hp : ∀ {ls s}, Stands o k ls s → continues s.current.tok →
      Leads p s fun a => Stands o k (ls ++ f a)) :
    Leads (Parse.whileTok fuel continues p) s fun as => Stands o k (ls ++ as.flatMap f) := by
  induction fuel generalizing ls s with
  | zero => exact h.congr (List.append_nil _).symm
  | succ fuel ih =>
    rw [Parse.whileTok, leads_tok]
    split
    · next hcontinues =>
      refine (hp h hcontinues).bind fun a s h => ?_
      refine (ih h).bind fun as s h => ?_
      exact h.congr (List.append_assoc ..)
    · exact h.congr (List.append_nil _).symm

theorem listUntil {fuel : Nat} {list close : String} (h : Stands o k ls s)
    (hp : ∀ {ls s}, Stands o k ls s → Leads p s fun a => Stands o k (ls ++ f a)) :
    Leads (Parse.listUntil fuel list close p) s fun as => Stands o k (ls ++ as.flatMap f) := by
  induction fuel generalizing ls s with
  | zero => exact h.congr (List.append_nil _).symm
  | succ fuel ih =>
    rw [Parse.listUntil, leads_tok]
    split
    · exact h.congr (List.append_nil _).symm
    · refine (hp h).bind fun a s h => ?_
      refine (h.atComma list close).bind fun more s ⟨h, hcomma⟩ => ?_
      split
      · next hmore =>
        refine (h.pass (hcomma hmore) rfl).bind fun _ s h => ?_
        refine (ih h).bind fun as s h => ?_
        exact h.congr (List.append_assoc ..)
      · exact h.congr (by simp)

end Stands

/-- What is done where nothing of the kind that is wanted starts. -/
theorem leads_recover (start : Nat) (what : String) (stops : Tok → Bool) {ls : Tree → List Leaf} :
    Leads (do Parse.expected start what; Parse.advance stops; Parse.bad start) s fun t =>
      Stands o k (ls t) := by
  refine (leads_expected ..).bind fun _ s hlost => ?_
  exact (hlost.advance stops).bind fun _ s hlost => hlost.stands

end LiteralAudit.Go
