import LiteralAudit.Proofs.Literal.Go.Expressions

/-!
# Declarations keep their literals

Of a declaration only the paths of imports are not kept. It **opens** with its keyword
(`Opens`), and what follows keeps the literals; so every declaration that is read without a complaint
leaves fewer tokens (`Opens.shortens`), and the declarations of a file come to its end.
-/

namespace LiteralAudit.Go

open LiteralAudit.Go.Tree

variable {g : Grammar} {o : Origin} {c : Context} {k : List Bool} {ls : List Leaf} {s : State}

/-! ## Declarations open with a keyword -/

/-- The parser passes a keyword, and keeps the literals behind it. -/
def Opens (w : String) (p : Parse Tree) : Prop :=
  ∃ rest : Nat → Parse Tree, p = Parse.expectKeyword w >>= rest ∧
    ∀ {start o k ls s}, Plain k → Read o ((⟨k, .other⟩ : Context).after (.keyword w)) ls s →
      Leads (rest start) s fun t => Stands o k (ls ++ t.leaves)

theorem Opens.keeps {w : String} {p : Parse Tree} (hp : Opens w p) (h : Stands o k ls s)
    (hk : Plain k) : Leads p s fun t => Stands o k (ls ++ t.leaves) := by
  obtain ⟨rest, rfl, hrest⟩ := hp
  exact (Read.expect h (.keyword w) rfl nofun).bind fun start s h => hrest hk h

/-- If nothing is wrong behind a declaration, there are fewer tokens left. -/
theorem Opens.shortens {w : String} {p : Parse Tree} (hp : Opens w p) (h : Stands o k ls s)
    (hk : Plain k) :
    Leads p s fun _ s' => s'.complaints = [] → s'.tokens.length < s.tokens.length := by
  obtain ⟨rest, rfl, hrest⟩ := hp
  have hkeyword := (Read.expect h (.keyword w) rfl nofun).and
    (Read.expect_shortens h (.keyword w) nofun)
  refine hkeyword.bind fun start s₁ ⟨h₁, hshort⟩ => ?_
  by_cases hclean₁ : s₁.complaints = []
  · -- told from behind the keyword, the rest leaves a part of what was left there
    refine (hrest hk h₁.rebase).mono fun t s' h' hclean => ?_
    exact (Read.length_le h' hclean).trans_lt (hshort hclean₁)
  · have hlost : Lost s₁ := hclean₁
    have hnowhere : Read .nowhere ((⟨k, .other⟩ : Context).after (.keyword w)) [] s₁ := hlost.read
    exact (hrest hk hnowhere).mono fun t s' h' hclean => absurd hclean h'.lost

/-! ## Imports -/

/-- The path is still to come behind the name of an import. -/
theorem Context.isAside_after_name (hc : c.brackets.head? = some true ∨ c.behind = .import) {t : Tok}
    (ht : t = .ident ∨ t = .op ".") :
    (c.after t).isAside ∧ (c.after t).brackets = c.brackets ∧ c.keeps t = false ∧ t ≠ .eof := by
  obtain ⟨brackets, behind⟩ := c
  rcases ht with rfl | rfl <;> cases behind <;>
    simp_all [after, isAside, keeps, Tok.isValue]

/-- The path of an import is not kept. It stands in brackets behind the keyword or right behind it. -/
theorem Read.importSpec (h : Read o c ls s)
    (hc : c.brackets.head? = some true ∨ c.behind = .import) :
    Leads Grammar.importSpec s fun t => Stands o c.brackets (ls ++ t.leaves) := by
  unfold Grammar.importSpec
  rw [leads_token]
  extract_lets finish rest
  have hfinish (s : State) (h : Stands o c.brackets ls s) :
      Leads (finish ()) s fun t => Stands o c.brackets (ls ++ t.leaves) :=
    h.expectSemicolon.bind fun _ s h => h.congr (by simp)
  have hrest (c' : Context) (haside : c'.isAside) (hbrackets : c'.brackets = c.brackets) (s : State)
      (h : Read o c' ls s) :
      Leads (rest ()) s fun t => Stands o c.brackets (ls ++ t.leaves) := by
    unfold rest
    rw [leads_token]
    split
    · next ht =>
      have ht := eq_of_beq ht
      have hkeeps : c'.keeps .string = false := by simp [Context.keeps, haside]
      refine (Read.next h (by simp [ht])).bind fun _ s h => hfinish s ?_
      have hafter : c'.after .string = ⟨c.brackets, .other⟩ := by
        rw [← hbrackets]
        rfl
      rw [ht, hkeeps, hafter] at h
      exact Stands.congr h (List.append_nil _)
    split
    · refine (leads_error ..).bind fun _ s hlost => ?_
      exact hlost.next.bind fun _ s hlost => hfinish s hlost.stands
    · refine (leads_error ..).bind fun _ s hlost => ?_
      exact (hlost.advance _).bind fun _ s hlost => hfinish s hlost.stands
  -- a name or a dot may stand before the path
  have hpass {t : Tok} (ht : s.current.tok = t) (hname? : t = .ident ∨ t = .op ".") :
      Leads Parse.next s fun _ s => Leads (rest ()) s fun t => Stands o c.brackets (ls ++ t.leaves) := by
    obtain ⟨haside, hbrackets, hkeeps, heof⟩ := Context.isAside_after_name hc hname?
    refine (Read.next h (ht ▸ heof)).mono fun _ s h => ?_
    rw [ht, hkeeps] at h
    exact hrest _ haside hbrackets s (List.append_nil ls ▸ h)
  split
  · next ht =>
    have hident : Leads Grammar.ident s fun _ s =>
        Leads (rest ()) s fun t => Stands o c.brackets (ls ++ t.leaves) := by
      unfold Grammar.ident
      rw [leads_token, if_pos ht]
      exact (hpass (eq_of_beq ht) (.inl rfl)).bind fun _ s h => h
    exact hident.discard.bind fun _ s h => h
  split
  · next ht => exact (hpass (eq_of_beq ht) (.inr rfl)).bind fun _ s h => h
  · refine hrest c ?_ rfl s h
    rcases hc with hc | hc <;> simp [Context.isAside, hc]

/-! ## Declarations with several specifications -/

theorem opens_imports : Opens "import" (g.specs "import" Grammar.importSpec) := by
  refine ⟨_, rfl, fun {start o k ls s} hk h => ?_⟩
  have h : Read o ⟨k, .import⟩ ls s := h
  rw [leads_atOp]
  split
  · next ht =>
    have ht := eq_of_beq ht
    refine (Read.next h (by simp [ht])).bind fun _ s h => ?_
    rw [ht] at h
    have h : Stands o (true :: k) ls s := Stands.congr h (List.append_nil _)
    refine (h.whileTok (f := Tree.leaves) fun {ls s} h _ => ?_).bind fun list s h => ?_
    · exact Read.importSpec h (.inl rfl)
    refine (h.expectOp ")").discard.bind fun _ s h => ?_
    exact h.expectSemicolon.bind fun _ s h => h.congr (by simp)
  · exact (Read.importSpec h (.inr rfl)).bind fun spec s h => h.congr (by simp)

theorem opens_specs {w : String} {spec : Parse Tree} (hw : (Tok.keyword w).isQuiet)
    (hspec : ∀ {o k ls s}, Stands o k ls s → Plain k →
      Leads spec s fun t => Stands o k (ls ++ t.leaves)) :
    Opens w (g.specs w spec) := by
  refine ⟨_, rfl, fun {start o k ls s} hk h => ?_⟩
  rw [Tok.after_of_isQuiet hw] at h
  have h : Stands o k ls s := h
  rw [leads_atOp]
  split
  · next ht =>
    refine (h.next (eq_of_beq ht) rfl).bind fun _ s h => ?_
    refine (h.whileTok fun h _ => hspec h (plain_inside k)).bind fun list s h => ?_
    refine (h.expectOp ")").discard.bind fun _ s h => ?_
    exact h.expectSemicolon.bind fun _ s h => h.congr (by simp)
  · exact (hspec h hk).bind fun spec s h => h.congr (by simp)

/-! ## Names that may be type parameters -/

theorem leaves_of_form_ident {x : Tree} {n : Text} (hx : x.form = .ident n) : x.leaves = [] := by
  obtain ⟨form, start, parts⟩ := x
  obtain rfl : form = .ident n := hx
  rfl

/-- A name that is split off has no literals; those of the expression are all behind it. -/
theorem leaves_of_splitName? {x name : Tree} {type? : Option Tree} {force : Bool}
    (hx : x.splitName? force = some (name, type?)) :
    name.leaves = [] ∧ leavesOf type?.toList = x.leaves := by
  fun_induction Tree.splitName? generalizing name type? with
  | case1 force start n parts =>
    cases hx
    simp
  | case2 force start op x y hop n hform htype =>
    cases hx
    simp [leaves_of_form_ident hform]
  | case5 force start op x y hstar hop n lhs hsplit ih =>
    cases hx
    obtain ⟨hn, hlhs⟩ := ih hsplit
    simpa [hn] using hlhs
  | case8 force start spread f x n hform htype =>
    cases hx
    simp [leaves_of_form_ident hform]
  | _ => cases hx

namespace Stands

variable (hg : g.Keeps)
include hg

/-! ## Values and types -/

theorem initializers (h : Stands o k ls s) (hk : Plain k) :
    Leads g.initializers s fun ts => Stands o k (ls ++ leavesOf ts) := by
  unfold Grammar.initializers
  rw [leads_atOp]
  split
  · next ht =>
    refine (h.next (eq_of_beq ht) rfl).bind fun _ s h => ?_
    exact (h.exprs hg hk).mono fun _ _ h => h.2
  · exact h.congr (by simp)

theorem valueSpec {isConst : Bool} (h : Stands o k ls s) (hk : Plain k) :
    Leads (g.valueSpec isConst) s fun t => Stands o k (ls ++ t.leaves) := by
  unfold Grammar.valueSpec
  refine leads_place.2 (h.idents.bind fun names s h => ?_)
  rw [leads_tok]
  extract_lets finish values
  have hfinish (r : Option Tree × List Tree) (s : State)
      (h : Stands o k (ls ++ leavesOf r.1.toList ++ leavesOf r.2) s) :
      Leads (finish r) s fun t => Stands o k (ls ++ t.leaves) :=
    h.expectSemicolon.bind fun _ s h => h.congr (by simp)
  have hvalues (type? : Option Tree) (s : State) (h : Stands o k (ls ++ leavesOf type?.toList) s) :
      Leads (values type?) s fun t => Stands o k (ls ++ t.leaves) :=
    (h.initializers hg hk).bind fun ts s h => hfinish (type?, ts) s h
  split
  · split
    · exact hfinish (none, []) s (h.congr (by simp))
    · exact (hg.type? h).bind hvalues
  · split
    · exact hvalues none s (h.congr (by simp))
    · exact (h.type hg).map_bind fun x s h => hvalues (some x) s (h.congr (by simp))

theorem declaredType (h : Stands o k ls s) :
    Leads g.declaredType s fun t => Stands o k (ls ++ t.leaves) := by
  unfold Grammar.declaredType
  rw [leads_atOp]
  extract_lets type
  split
  · next ht => exact (h.next (eq_of_beq ht) rfl).bind fun _ s h => h.type hg
  · exact h.type hg

theorem genericTypeFrom {first : Grammar.Parameter} (hfirst : first.Fits)
    (h : Stands o (false :: k) (ls ++ first.leaves) s) :
    Leads (g.genericTypeFrom first) s fun ts => Stands o k (ls ++ leavesOf ts) := by
  unfold Grammar.genericTypeFrom
  have h : Stands o (false :: k) (ls ++ (some first).toList.flatMap Grammar.Parameter.leaves) s :=
    h.congr (by simp)
  refine (h.parameterList hg (by simpa using hfirst)).bind fun params s h => ?_
  refine (h.expectOp "]").discard.bind fun _ s h => ?_
  exact (h.declaredType hg).bind fun type s h => h.congr (by simp)

theorem typeSpec (h : Stands o k ls s) :
    Leads g.typeSpec s fun t => Stands o k (ls ++ t.leaves) := by
  unfold Grammar.typeSpec
  refine h.ident.bind fun name s ⟨_, h⟩ => ?_
  rw [leads_atOp]
  extract_lets finish
  have hfinish (parts : List Tree) (s : State) (h : Stands o k (ls ++ leavesOf parts) s) :
      Leads (finish parts) s fun t => Stands o k (ls ++ t.leaves) :=
    h.expectSemicolon.bind fun _ s h => h.congr (by simp)
  split
  · next ht =>
    refine leads_place.2 ((h.next (eq_of_beq ht) rfl).bind fun _ s h => ?_)
    have harray (length? : Option Tree) (start : Nat) (s : State)
        (h : Stands o (false :: k) (ls ++ leavesOf length?.toList) s) :
        Leads (do finish [← g.arrayTypeFrom start length?]) s fun t =>
          Stands o k (ls ++ t.leaves) :=
      (h.arrayTypeFrom hg).bind fun t s h => hfinish [t] s (h.congr (by simp))
    rw [leads_tok]
    split
    · refine h.ident.bind fun first s ⟨hfirst, h⟩ => ?_
      rw [leads_atOp]
      extract_lets decide
      have hdecide (x : Tree) (s : State) (h : Stands o (false :: k) (ls ++ x.leaves) s) :
          Leads (decide x) s fun t => Stands o k (ls ++ t.leaves) := by
        unfold decide
        rw [leads_tok]
        have hsome : Stands o (false :: k) (ls ++ leavesOf (some x).toList) s := h.congr (by simp)
        split
        · next n type? hsplit =>
          obtain ⟨hn, htype⟩ := leaves_of_splitName? hsplit
          split
          · -- type parameters, the first of which is read
            have hfits : Grammar.Parameter.Fits ⟨some n, type?⟩ :=
              Grammar.Parameter.fits_of_some hn type?
            have h : Stands o (false :: k) (ls ++ Grammar.Parameter.leaves ⟨some n, type?⟩) s :=
              h.congr (by rw [Grammar.Parameter.leaves, htype])
            exact (h.genericTypeFrom hg hfits).bind hfinish
          · exact harray (some x) _ s hsome
        · exact harray (some x) _ s hsome
      have hfirst : Stands o (false :: k) (ls ++ first.leaves) s := h.congr (by simp [hfirst])
      split
      · exact hdecide first s hfirst
      · refine Leads.bind (hfirst.inside (fun {s} h => ?_) fun _ _ _ h => h) hdecide
        refine (h.primaryFrom hg g.fuel 0).bind fun x s h => ?_
        have h : Stands o (false :: k) (ls ++ leavesOf (some x).toList) s := h.congr (by simp)
        exact hg.binary h (plain_inside k) Nat.one_pos
    · exact harray none _ s (h.congr (by simp))
  · exact (h.declaredType hg).bind fun type s h => hfinish [type] s (h.congr (by simp))

/-! ## Functions -/

theorem functionBody (h : Stands o k ls s) :
    Leads g.functionBody s fun ts => Stands o k (ls ++ leavesOf ts) := by
  unfold Grammar.functionBody
  have hblock (s : State) (h : Stands o k ls s) :
      Leads (do
        let body ← g.block
        Parse.expectSemicolon
        return [body]) s fun ts => Stands o k (ls ++ leavesOf ts) :=
    (h.block hg).bind fun body s h => h.expectSemicolon.bind fun _ s h => h.congr (by simp)
  rw [leads_atOp]
  split
  · exact hblock s h
  rw [leads_atOp]
  split
  · next ht =>
    refine (h.next (eq_of_beq ht) rfl).bind fun _ s h => ?_
    rw [leads_atOp]
    split
    · exact leads_place.2 ((leads_error ..).bind fun _ s hlost => hblock s hlost.stands)
    · exact h.congr (by simp)
  · exact h.expectSemicolon.bind fun _ s h => h.congr (by simp)

end Stands

theorem opens_function (hg : g.Keeps) : Opens "func" g.functionDeclaration := by
  refine ⟨_, rfl, fun {start o k ls s} hk h => ?_⟩
  have h : Stands o k ls s := h
  rw [leads_atOp]
  extract_lets rest
  have hrest (receiver : List Tree) (s : State) (h : Stands o k (ls ++ leavesOf receiver) s) :
      Leads (rest receiver) s fun t => Stands o k (ls ++ t.leaves) := by
    refine (h.ident.mono fun _ _ h => h.2).discard.bind fun _ s h => ?_
    refine (h.typeParameters hg).bind fun r s h => ?_
    refine (h.signature hg).bind fun signature s h => ?_
    exact (h.functionBody hg).bind fun body s h => h.congr (by simp)
  split
  · exact (h.parameters hg).bind hrest
  · exact hrest [] s (h.congr (by simp))

/-! ## All declarations -/

/-- A declaration keeps its literals, and leaves fewer tokens. -/
theorem Stands.declaration (hg : g.Keeps) {stops : Tok → Bool} (h : Stands o k ls s) (hk : Plain k) :
    Leads (g.declaration stops) s fun t s' => Stands o k (ls ++ t.leaves) s' ∧
      (s'.complaints = [] → s'.tokens.length < s.tokens.length) := by
  have hopens {w : String} {p : Parse Tree} (hp : Opens w p) :
      Leads p s fun t s' => Stands o k (ls ++ t.leaves) s' ∧
        (s'.complaints = [] → s'.tokens.length < s.tokens.length) :=
    (hp.keeps h hk).and (hp.shortens h hk)
  unfold Grammar.declaration
  rw [leads_tok]
  split
  · exact hopens opens_imports
  · exact hopens (opens_specs rfl fun h hk => h.valueSpec hg hk)
  · exact hopens (opens_specs rfl fun h hk => h.valueSpec hg hk)
  · exact hopens (opens_specs rfl fun h _ => h.typeSpec hg)
  · exact hopens (opens_function hg)
  · refine leads_place.2 ((leads_expected ..).bind fun _ s hlost => ?_)
    refine (hlost.advance stops).bind fun _ s hlost => ?_
    exact ⟨hlost.stands, fun hclean => absurd hclean hlost⟩

end LiteralAudit.Go
