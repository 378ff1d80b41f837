import LiteralAudit.Proofs.Literal.Go.Types

/-!
# Expressions keep their literals

The parsers of expressions keep the literals of a source if those do that they are given, wherever a
string is no tag. What stands behind an operand goes on with the tree of the operand, of which the
literals were read before.
-/

namespace LiteralAudit.Go

open LiteralAudit.Go.Tree

variable {g : Grammar} {o : Origin} {k : List Bool} {ls : List Leaf} {s : State}

/-- A literal is passed, and kept in the tree. -/
theorem Stands.literal (h : Stands o k ls s) (hk : Plain k)
    (ht : s.current.tok ∈ [Tok.int, .float, .imag, .char, .string]) :
    Leads (do
      Parse.next
      return Tree.node (.literal s.current.tok s.current.text) s.current.start []) s fun t =>
        Stands o k (ls ++ t.leaves) := by
  have heof : s.current.tok ≠ .eof := by
    intro heof
    rw [heof] at ht
    revert ht
    decide
  have hafter : (⟨k, .other⟩ : Context).after s.current.tok = ⟨k, .other⟩ := by
    simp only [List.mem_cons, List.not_mem_nil, or_false] at ht
    rcases ht with ht | ht | ht | ht | ht <;> rw [ht] <;> rfl
  have hkeeps : (⟨k, .other⟩ : Context).keeps s.current.tok = s.current.tok.isValue := by
    have haside : (⟨k, .other⟩ : Context).isAside = false := by
      simpa [Context.isAside, Plain] using hk
    simp [Context.keeps, haside]
  refine (Read.next h heof).bind fun _ s' h => ?_
  rw [hafter, hkeeps] at h
  exact Stands.congr h (by simp [Token.leaf])

namespace Stands

variable (hg : g.Keeps)
include hg

/-! ## Lists of expressions -/

theorem exprs {inRhs : Bool} (h : Stands o k ls s) (hk : Plain k) :
    Leads (g.exprs inRhs) s fun xs s => xs ≠ [] ∧ Stands o k (ls ++ leavesOf xs) s := by
  unfold Grammar.exprs
  refine h.withRhs inRhs (fun {s} h => ?_) fun _ _ _ h => h
  refine (h.expr hg hk).bind fun first s h => ?_
  refine Leads.bind (h.whileTok (f := Tree.leaves) fun h ht => ?_) fun rest s h => ?_
  · exact (h.next (eq_of_beq ht) rfl).bind fun _ s h => h.expr hg hk
  · exact ⟨List.cons_ne_nil _ _, h.congr (by simp)⟩

/-! ## Function literals -/

theorem statements (h : Stands o k ls s) (hk : Plain k) :
    Leads g.statements s fun ts => Stands o k (ls ++ leavesOf ts) := by
  unfold Grammar.statements
  exact h.whileTok fun h _ => hg.statement h hk

theorem block (h : Stands o k ls s) :
    Leads g.block s fun t => Stands o k (ls ++ t.leaves) := by
  unfold Grammar.block
  refine (h.expectOp "\x7b").bind fun start s h => ?_
  refine (h.statements hg (plain_inside k)).bind fun body s h => ?_
  exact (h.expectOp "\x7d").discard.bind fun _ s h => h.congr (by simp)

theorem functionTypeOrLiteral (h : Stands o k ls s) :
    Leads g.functionTypeOrLiteral s fun t => Stands o k (ls ++ t.leaves) := by
  unfold Grammar.functionTypeOrLiteral
  refine (h.functionType hg).bind fun type s h => ?_
  rw [leads_atOp]
  split
  · exact (h.inside (fun h => h.block hg) fun _ _ _ h => h).bind fun body s h => h.congr (by simp)
  · exact h

/-! ## Operands -/

theorem operand (h : Stands o k ls s) (hk : Plain k) :
    Leads g.operand s fun t => Stands o k (ls ++ t.leaves) := by
  unfold Grammar.operand
  rw [leads_token]
  split
  · exact h.ident.mono fun t s ⟨ht, h⟩ => h.congr (by simp [ht])
  iterate 5
    next ht => exact h.literal hk (by simp [ht])
  · next ht =>
    refine (h.next ht rfl).bind fun _ s h => ?_
    refine (h.inside (fun h => h.rhs hg (plain_inside k)) fun _ _ _ h => h).bind fun x s h => ?_
    exact (h.expectOp ")").discard.bind fun _ s h => h.congr (by simp)
  · exact h.functionTypeOrLiteral hg
  · refine (hg.type? h).bind fun x? s h => ?_
    cases x? with
    | some x => exact h.congr (by simp)
    | none => exact leads_place.2 (leads_recover ..)

/-! ## What follows an operand -/

theorem assertionFrom {x : Tree} (h : Stands o k (ls ++ x.leaves) s) :
    Leads (g.assertionFrom x) s fun t => Stands o k (ls ++ t.leaves) := by
  unfold Grammar.assertionFrom
  refine (h.expectOp "(").discard.bind fun _ s h => ?_
  rw [leads_atKeyword]
  split
  · next ht =>
    refine (h.next (eq_of_beq ht) rfl).bind fun _ s h => ?_
    exact (h.expectOp ")").discard.bind fun _ s h => h.congr (by simp)
  · refine (h.type hg).bind fun type s h => ?_
    exact (h.expectOp ")").discard.bind fun _ s h => h.congr (by simp)

theorem sliceBounds (n : Nat) (h : Stands o k ls s) (hk : Plain k) :
    Leads (g.sliceBounds n) s fun bounds => Stands o k (ls ++ leavesOf (bounds.filterMap (·.2))) := by
  induction n generalizing ls s with
  | zero => exact h.congr (by simp)
  | succ n ih =>
    rw [Grammar.sliceBounds, leads_atOp]
    split
    · next ht =>
      refine leads_place.2 ((h.next (eq_of_beq ht) rfl).bind fun _ s h => ?_)
      rw [leads_tok]
      extract_lets rest
      have hrest (bound : Option Tree) (s : State) (h : Stands o k (ls ++ leavesOf bound.toList) s) :
          Leads (rest bound) s fun bounds =>
            Stands o k (ls ++ leavesOf (bounds.filterMap (·.2))) := by
        refine (ih h).bind fun bounds s h => h.congr ?_
        cases bound <;> simp
      split
      · exact hrest none s (h.congr (by simp))
      · exact (h.rhs hg hk).map_bind fun x s h => hrest (some x) s (h.congr (by simp))
    · exact h.congr (by simp)

/-- The types behind the first argument of an instance. -/
theorem moreArguments (h : Stands o k ls s) :
    Leads (Parse.whileTok g.fuel (· == .op ",") do
      Parse.next
      let t ← Parse.tok
      if t == .op "]" || t == .eof then pure [] else pure [← g.type]) s fun args =>
        Stands o k (ls ++ leavesOf args.flatten) := by
  refine (h.whileTok (f := leavesOf) fun h ht => ?_).mono fun args s h => h.congr ?_
  · refine (h.next (eq_of_beq ht) rfl).bind fun _ s h => ?_
    rw [leads_tok]
    split
    · exact h.congr (by simp)
    · exact (h.type hg).bind fun x s h => h.congr (by simp)
  · rw [leavesOf, List.flatMap_def, List.flatMap_def, List.map_flatten, List.flatten_flatten,
      List.map_map]
    rfl

theorem indexFrom {x : Tree} (h : Stands o k (ls ++ x.leaves) s) :
    Leads (g.indexFrom x) s fun t => Stands o k (ls ++ t.leaves) := by
  have hk := plain_inside k
  unfold Grammar.indexFrom
  refine (h.expectOp "[").discard.bind fun _ s h => ?_
  rw [leads_atOp]
  split
  · refine leads_place.2 ((leads_expected ..).bind fun _ s hlost => ?_)
    exact hlost.next.bind fun _ s hlost => hlost.stands
  -- either a slice was read or an index, with more arguments if it is an instance
  refine Leads.bind
    (P := fun (r : Option Tree × List (Nat × Option Tree) × List Tree) s => (r.2.1 ≠ [] → r.2.2 = []) ∧
    Stands o (false :: k) (ls ++ x.leaves ++ leavesOf r.1.toList ++
      leavesOf (r.2.1.filterMap (·.2)) ++ leavesOf r.2.2) s)
    (h.inside (fun {s} h => ?_) fun _ _ _ h => h) ?_
  · rw [leads_atOp]
    extract_lets rest
    have hrest (first : Option Tree) (s : State)
        (h : Stands o (false :: k) (ls ++ x.leaves ++ leavesOf first.toList) s) :
        Leads (rest first) s fun r s => (r.2.1 ≠ [] → r.2.2 = []) ∧
          Stands o (false :: k) (ls ++ x.leaves ++ leavesOf r.1.toList ++
            leavesOf (r.2.1.filterMap (·.2)) ++ leavesOf r.2.2) s := by
      unfold rest
      rw [leads_atOp]
      split
      · exact (h.sliceBounds hg 2 hk).bind fun bounds s h => ⟨fun _ => rfl, h.congr (by simp)⟩
      · refine (h.moreArguments hg).bind fun args s h => ⟨fun hne => absurd rfl hne, ?_⟩
        exact h.congr (by simp)
    split
    · exact hrest none s (h.congr (by simp))
    · exact (h.rhs hg hk).map_bind fun x s h => hrest (some x) s (h.congr (by simp))
  · rintro ⟨first, bounds, args⟩ s ⟨hargs, h⟩
    dsimp only at hargs h
    refine (h.expectOp "]").discard.bind fun _ s h => ?_
    have hslice (hne : bounds ≠ []) : Stands o k
        (ls ++ (node .slice x.start (x :: first.toList ++ bounds.filterMap (·.2))).leaves) s :=
      h.congr (by simp [hargs hne])
    rcases bounds with _ | ⟨⟨colon, middle⟩, _ | ⟨⟨colon', last⟩, _ | ⟨_, _⟩⟩⟩
    · exact h.congr (by simp)
    · exact hslice (by simp)
    · dsimp only
      split
      · refine (leads_error ..).bind fun _ s hlost => ?_
        split
        · exact (leads_error ..).bind fun _ s hlost => hlost.stands
        · exact hlost.stands
      · split
        · exact (leads_error ..).bind fun _ s hlost => hlost.stands
        · exact hslice (by simp)
    · exact hslice (by simp)

/-- An argument of a call, and those behind it. -/
theorem arguments (fuel : Nat) (h : Stands o k ls s) (hk : Plain k) :
    Leads (g.arguments fuel) s fun r => Stands o k (ls ++ leavesOf r.1) := by
  induction fuel generalizing ls s with
  | zero => exact h.congr (by simp)
  | succ fuel ih =>
    rw [Grammar.arguments, leads_tok]
    split
    · exact h.congr (by simp)
    refine (h.rhs hg hk).bind fun x s h => ?_
    rw [leads_atOp]
    extract_lets rest
    have hrest (s : State) (h : Stands o k (ls ++ x.leaves) s) :
        Leads (rest ()) s fun r => Stands o k (ls ++ leavesOf r.1) := by
      refine (h.atComma _ _).bind fun more s ⟨h, hcomma⟩ => ?_
      split
      · next hmore =>
        refine (h.pass (hcomma hmore) rfl).bind fun _ s h => ?_
        split
        · exact h.congr (by simp)
        · exact (ih h).bind fun r s h => h.congr (by simp)
      · exact h.congr (by simp)
    split
    · next ht => exact (h.next (eq_of_beq ht) rfl).bind fun _ s h => hrest s h
    · exact hrest s h

theorem callFrom {f : Tree} (h : Stands o k (ls ++ f.leaves) s) :
    Leads (g.callFrom f) s fun t => Stands o k (ls ++ t.leaves) := by
  unfold Grammar.callFrom
  refine (h.expectOp "(").discard.bind fun _ s h => ?_
  refine (h.inside (fun h => h.arguments hg g.fuel (plain_inside k)) fun _ _ _ h => h).bind
    fun r s h => ?_
  exact (h.expectClosing ")" _).bind fun _ s h => h.congr (by simp)

/-! ## Composite literals -/

theorem elementValue (h : Stands o k ls s) (hk : Plain k) :
    Leads g.elementValue s fun t => Stands o k (ls ++ t.leaves) := by
  unfold Grammar.elementValue
  rw [leads_atOp]
  split
  · have h : Stands o k (ls ++ leavesOf (none : Option Tree).toList) s := h.congr (by simp)
    exact hg.braces h
  · exact h.expr hg hk

theorem element (h : Stands o k ls s) (hk : Plain k) :
    Leads g.element s fun t => Stands o k (ls ++ t.leaves) := by
  unfold Grammar.element
  refine (h.elementValue hg hk).bind fun x s h => ?_
  rw [leads_atOp]
  split
  · next ht =>
    refine (h.next (eq_of_beq ht) rfl).bind fun _ s h => ?_
    exact (h.elementValue hg hk).bind fun value s h => h.congr (by simp)
  · exact h

theorem compositeFrom {type? : Option Tree} (h : Stands o k (ls ++ leavesOf type?.toList) s) :
    Leads (g.compositeFrom type?) s fun t => Stands o k (ls ++ t.leaves) := by
  unfold Grammar.compositeFrom
  refine h.nested (fun {s} h => ?_) fun _ _ _ h => h
  refine (h.expectOp "\x7b").bind fun start s h => ?_
  refine (h.inside (fun h => h.listUntil fun h => h.element hg (plain_inside k))
    fun _ _ _ h => h).bind
    fun elements s h => ?_
  exact (h.expectClosing "\x7d" _).bind fun _ s h => h.congr (by simp)

/-! ## Primary expressions -/

theorem primaryFrom (fuel depth : Nat) {x : Tree}
    (h : Stands o k (ls ++ x.leaves) s) :
    Leads (g.primaryFrom fuel depth x) s fun t => Stands o k (ls ++ t.leaves) := by
  induction fuel generalizing depth x s with
  | zero => exact h
  | succ fuel ih =>
    rw [Grammar.primaryFrom]
    refine h.enter.bind fun _ s h => ?_
    extract_lets depth more composite
    rw [leads_token]
    split
    · next ht =>
      refine (h.next ht rfl).bind fun _ s h => ?_
      rw [leads_token]
      split
      · next hu => exact (h.next hu rfl).bind fun _ s h => ih depth (h.congr (by simp))
      · exact (h.assertionFrom hg).bind fun t s h => ih depth h
      · refine (leads_expected ..).bind fun _ s hlost => ?_
        extract_lets nameless
        have hnameless (s : State) (hlost : Lost s) :
            Leads (nameless ()) s fun t => Stands o k (ls ++ t.leaves) := ih depth hlost.stands
        split
        · exact hlost.next.bind fun _ s hlost => hnameless s hlost
        · exact hnameless s hlost
    · exact (h.indexFrom hg).bind fun t s h => ih depth h
    · exact (h.callFrom hg).bind fun t s h => ih depth h
    · rw [leads_get]
      split
      · have hcomposite (s : State) (h : Stands o k (ls ++ leavesOf (some x).toList) s) :
            Leads (composite ()) s fun t => Stands o k (ls ++ t.leaves) :=
          (hg.braces h).bind fun t s h => ih depth h
        split
        · exact (leads_error ..).bind fun _ s hlost => hcomposite s hlost.stands
        · exact hcomposite s (h.congr (by simp))
      · exact (h.leave depth).bind fun _ s h => h
    · exact (h.leave depth).bind fun _ s h => h

theorem primary (h : Stands o k ls s) (hk : Plain k) :
    Leads g.primary s fun t => Stands o k (ls ++ t.leaves) := by
  unfold Grammar.primary
  exact (h.operand hg hk).bind fun x s h => h.primaryFrom hg g.fuel 0

end Stands

/-! ## Unary and binary expressions -/

/-- Passing an arrow on changes the types, but not what is in them. -/
theorem Stands.receiving (arrow fuel : Nat) {x : Tree} (h : Stands o k (ls ++ x.leaves) s) :
    Leads (Grammar.receiving arrow fuel x) s fun t => Stands o k (ls ++ t.leaves) := by
  induction fuel generalizing arrow x s with
  | zero =>
    rw [Grammar.receiving]
    · exact h
    · intros; contradiction
  | succ fuel ih =>
    unfold Grammar.receiving
    split
    · next n sends receives arrow' start value hn =>
      obtain rfl : fuel = n := Nat.succ.inj hn
      have h : Stands o k (ls ++ value.leaves) s := h.congr (by simp)
      extract_lets finish rest
      have hfinish (value : Tree) (s : State) (h : Stands o k (ls ++ value.leaves) s) :
          Leads (finish value) s fun t => Stands o k (ls ++ t.leaves) := h.congr (by simp)
      have hrest (s : State) (h : Stands o k (ls ++ value.leaves) s) :
          Leads (rest ()) s fun t => Stands o k (ls ++ t.leaves) := by
        unfold rest
        split
        · split
          · exact (ih arrow' h).bind hfinish
          · exact (leads_expected ..).bind fun _ s hlost => hfinish value s hlost.stands
        · exact hfinish value s h
      split
      · exact (leads_expected ..).bind fun _ s hlost => hrest s hlost.stands
      · exact hrest s h
    · exact h

/-- What binds as an operator is neither a literal nor a bracket. -/
theorem Tok.isQuiet_of_precedence {t : Tok} (ht : 0 < t.precedence) :
    t.isQuiet ∧ ∀ k, t.nest k = k := by
  cases t with
  | op s =>
    refine ⟨rfl, fun k => ?_⟩
    by_contra hnest
    have hbracket : s ∈ ["(", "\x7b", "[", ")", "]", "\x7d"] := by
      simp only [nest] at hnest
      grind
    revert ht
    fin_cases hbracket <;> decide
  | _ => cases ht

namespace Stands

variable (hg : g.Keeps)
include hg

theorem unaryExpr (h : Stands o k ls s) (hk : Plain k) :
    Leads g.unaryExpr s fun t => Stands o k (ls ++ t.leaves) := by
  unfold Grammar.unaryExpr
  refine h.nested (fun {s} h => ?_) fun _ _ _ h => h
  rw [leads_token]
  split
  · next op ht =>
    have hpass (hnest : (Tok.op op).nest k = k) : Leads Parse.next s fun _ => Stands o k ls := by
      have hnext := h.next ht rfl
      rwa [hnest] at hnext
    split
    · next hop =>
      have hnest : (Tok.op op).nest k = k := by
        rw [List.contains_iff_mem] at hop
        fin_cases hop <;> rfl
      refine (hpass hnest).bind fun _ s h => ?_
      exact (hg.unary h hk).bind fun x s h => h.congr (by simp)
    split
    · next hop =>
      obtain rfl := eq_of_beq hop
      refine (hpass rfl).bind fun _ s h => ?_
      refine (hg.unary h hk).bind fun x s h => ?_
      split
      · exact h.receiving _ _
      · exact h.congr (by simp)
    split
    · next hop =>
      obtain rfl := eq_of_beq hop
      refine (hpass rfl).bind fun _ s h => ?_
      exact (hg.unary h hk).bind fun x s h => h.congr (by simp)
    · exact h.primary hg hk
  · exact h.primary hg hk

theorem binaryFrom (hk : Plain k) {least : Nat} (hleast : 0 < least) (fuel depth : Nat) {x : Tree}
    (h : Stands o k (ls ++ x.leaves) s) :
    Leads (g.binaryFrom least fuel depth x) s fun t => Stands o k (ls ++ t.leaves) := by
  induction fuel generalizing depth x s with
  | zero => exact h
  | succ fuel ih =>
    rw [Grammar.binaryFrom]
    refine h.enter.bind fun _ s h => ?_
    rw [leads_tok, leads_get]
    extract_lets op
    split
    · exact h
    · next hbinds =>
      obtain ⟨hquiet, hnest⟩ := Tok.isQuiet_of_precedence (hleast.trans_le (not_lt.1 hbinds))
      refine (h.expect op hquiet).discard.bind fun _ s h => ?_
      rw [hnest] at h
      have h : Stands o k (ls ++ x.leaves ++ leavesOf (none : Option Tree).toList) s :=
        h.congr (by simp)
      refine (hg.binary h hk (Nat.succ_pos _)).bind fun y s h => ?_
      exact ih (depth + 1) (h.congr (by simp))

theorem binaryExpr (hk : Plain k) {least : Nat} (hleast : 0 < least) {x? : Option Tree}
    (h : Stands o k (ls ++ leavesOf x?.toList) s) :
    Leads (g.binaryExpr x? least) s fun t => Stands o k (ls ++ t.leaves) := by
  unfold Grammar.binaryExpr
  cases x? with
  | some x => exact Stands.binaryFrom hg hk hleast g.fuel 0 (h.congr (by simp))
  | none =>
    have h : Stands o k ls s := h.congr (by simp)
    exact (hg.unary h hk).bind fun x s h => h.binaryFrom hg hk hleast g.fuel 0

end Stands

end LiteralAudit.Go
