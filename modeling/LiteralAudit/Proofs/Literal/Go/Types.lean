import LiteralAudit.Proofs.Literal.Go.Reading

/-!
# Types keep their literals

A grammar **keeps** the literals of a source if none of its parsers drops, repeats or moves one
(`Grammar.Keeps`): whatever was read before, the literals read by a parser are the leaves of its tree.
The parsers of types do if those do that they are given.

The literals of a type all stand in brackets. So types are read wherever they stand, also among the
fields of a struct, while expressions are read only in **plain** brackets, where no string is a tag.
-/

namespace LiteralAudit.Go

open LiteralAudit.Go.Tree

/-- The innermost brackets hold neither fields nor imports. -/
def Plain (k : List Bool) : Prop := k.head? ≠ some true

theorem plain_inside (k : List Bool) : Plain (false :: k) := by simp [Plain]

/-- None of the parsers drops, repeats or moves a literal. -/
structure Grammar.Keeps (g : Grammar) : Prop where
  fuel : 0 < g.fuel
  type? : ∀ {o k ls s}, Stands o k ls s →
    Leads g.type? s fun t? => Stands o k (ls ++ leavesOf t?.toList)
  unary : ∀ {o k ls s}, Stands o k ls s → Plain k →
    Leads g.unary s fun t => Stands o k (ls ++ t.leaves)
  binary : ∀ {o k ls s x? least}, Stands o k (ls ++ leavesOf x?.toList) s → Plain k → 0 < least →
    Leads (g.binary x? least) s fun t => Stands o k (ls ++ t.leaves)
  statement : ∀ {o k ls s}, Stands o k ls s → Plain k →
    Leads g.statement s fun t => Stands o k (ls ++ t.leaves)
  braces : ∀ {o k ls s x?}, Stands o k (ls ++ leavesOf x?.toList) s →
    Leads (g.braces x?) s fun t => Stands o k (ls ++ t.leaves)
  ifStatement : ∀ {o k ls s}, Stands o k ls s → Plain k →
    Leads g.ifStatement s fun t => Stands o k (ls ++ t.leaves)

variable {g : Grammar} {o : Origin} {k : List Bool} {ls : List Leaf} {s : State}

namespace Stands

/-! ## Names -/

theorem ident (h : Stands o k ls s) :
    Leads Grammar.ident s fun t s => t.leaves = [] ∧ Stands o k ls s := by
  unfold Grammar.ident
  rw [leads_token]
  split
  · next ht => exact (h.next (eq_of_beq ht) rfl).bind fun _ s h => ⟨rfl, h⟩
  · exact (h.expect .ident rfl).discard.bind fun _ s h => ⟨rfl, h⟩

/-- Names behind commas. -/
theorem moreIdents (fuel : Nat) (h : Stands o k ls s) :
    Leads (Parse.whileTok fuel (· == .op ",") (do Parse.next; Grammar.ident)) s fun _ =>
      Stands o k ls := by
  refine (h.whileTok (f := fun _ => []) fun h ht => ?_).mono fun as s h => h.congr (by simp)
  refine (h.next (eq_of_beq ht) rfl).bind fun _ s h => ?_
  exact h.ident.mono fun _ s ⟨_, h⟩ => h.congr (List.append_nil _).symm

theorem idents (h : Stands o k ls s) : Leads g.idents s fun _ => Stands o k ls := by
  unfold Grammar.idents
  refine h.ident.bind fun _ s ⟨_, h⟩ => ?_
  exact (h.moreIdents g.fuel).bind fun _ s h => h

theorem typeNameFrom {name : Tree} (h : Stands o k ls s) :
    Leads (Grammar.typeNameFrom name) s fun t s => t.leaves = name.leaves ∧ Stands o k ls s := by
  unfold Grammar.typeNameFrom
  rw [leads_atOp]
  split
  · next ht =>
    refine (h.next (eq_of_beq ht) rfl).bind fun _ s h => ?_
    exact h.ident.bind fun _ s ⟨_, h⟩ => ⟨by simp, h⟩
  · exact ⟨rfl, h⟩

theorem typeName (h : Stands o k ls s) :
    Leads Grammar.typeName s fun t s => t.leaves = [] ∧ Stands o k ls s := by
  unfold Grammar.typeName
  refine h.ident.bind fun name s ⟨hname, h⟩ => ?_
  exact h.typeNameFrom.mono fun t s ⟨ht, h⟩ => ⟨ht.trans hname, h⟩

end Stands

@[simp] theorem leaves_indexed (x : Tree) (args : List Tree) :
    (Grammar.indexed x args).leaves = x.leaves ++ leavesOf args := by
  unfold Grammar.indexed
  split <;> simp

theorem leaves_of_isIdent {t : Tree} (ht : Grammar.isIdent t) : t.leaves = [] := by
  obtain ⟨form, start, parts⟩ := t
  cases form <;> first | rfl | cases ht

namespace Stands

variable (hg : g.Keeps)
include hg

theorem expr (h : Stands o k ls s) (hk : Plain k) :
    Leads g.expr s fun t => Stands o k (ls ++ t.leaves) :=
  hg.binary (h.congr (List.append_nil _).symm) hk Nat.one_pos

theorem rhs (h : Stands o k ls s) (hk : Plain k) :
    Leads g.rhs s fun t => Stands o k (ls ++ t.leaves) :=
  h.withRhs true (fun h => h.expr hg hk) fun _ _ _ h => h

theorem type (h : Stands o k ls s) : Leads g.type s fun t => Stands o k (ls ++ t.leaves) := by
  unfold Grammar.type
  refine (hg.type? h).bind fun t? s h => ?_
  cases t? with
  | some t => exact h.congr (by simp)
  | none => exact leads_place.2 (leads_recover ..)

theorem typeInstance {x : Tree} (h : Stands o k (ls ++ x.leaves) s) :
    Leads (g.typeInstance x) s fun t => Stands o k (ls ++ t.leaves) := by
  unfold Grammar.typeInstance
  refine (h.expectOp "[").discard.bind fun _ s h => ?_
  refine (h.inside (fun h => h.listUntil fun h => h.type hg) fun _ _ _ h => h).bind
    fun args s h => ?_
  rw [leads_place]
  refine (h.expectClosing "]" _).bind fun _ s h => ?_
  extract_lets rest
  have hrest (s' : State) (h : Stands o k (ls ++ x.leaves ++ leavesOf args) s') :
      Leads (rest ()) s' fun t => Stands o k (ls ++ t.leaves) := h.congr (by simp)
  split
  · exact (leads_expected ..).bind fun _ s hlost => hrest s hlost.stands
  · exact hrest s h

theorem qualifiedFrom {name : Tree} (hname : name.leaves = []) (h : Stands o k ls s) :
    Leads (g.qualifiedFrom name) s fun t => Stands o k (ls ++ t.leaves) := by
  unfold Grammar.qualifiedFrom
  refine h.typeNameFrom.bind fun x s ⟨hx, h⟩ => ?_
  have h : Stands o k (ls ++ x.leaves) s := h.congr (by simp [hx, hname])
  rw [leads_atOp]
  split
  · exact h.typeInstance hg
  · exact h

theorem qualified (h : Stands o k ls s) :
    Leads g.qualified s fun t => Stands o k (ls ++ t.leaves) := by
  unfold Grammar.qualified
  exact h.ident.bind fun name s ⟨hname, h⟩ => h.qualifiedFrom hg hname

/-! ## Arrays and instances -/

theorem arrayTypeFrom {start : Nat} {length? : Option Tree}
    (h : Stands o (false :: k) (ls ++ leavesOf length?.toList) s) :
    Leads (g.arrayTypeFrom start length?) s fun t => Stands o k (ls ++ t.leaves) := by
  unfold Grammar.arrayTypeFrom
  extract_lets rest
  have hrest (length : List Tree) (s : State)
      (h : Stands o (false :: k) (ls ++ leavesOf length) s) :
      Leads (rest length) s fun t => Stands o k (ls ++ t.leaves) := by
    unfold rest
    rw [leads_atOp]
    extract_lets close
    have hclose (s : State) (h : Stands o (false :: k) (ls ++ leavesOf length) s) :
        Leads (close ()) s fun t => Stands o k (ls ++ t.leaves) := by
      refine (h.expectOp "]").discard.bind fun _ s h => ?_
      exact (h.type hg).bind fun element s h => h.congr (by simp)
    split
    · refine leads_place.2 ((leads_error ..).bind fun _ s hlost => ?_)
      exact hlost.next.bind fun _ s hlost => hclose s hlost.stands
    · exact hclose s h
  cases length? with
  | some x => exact hrest [x] s h
  | none =>
    refine Leads.bind (P := fun length => Stands o (false :: k) (ls ++ leavesOf length))
      (h.inside (fun {s} h => ?_) fun _ _ _ h => h) hrest
    rw [leads_token]
    split
    · next ht => exact (h.next (eq_of_beq ht) rfl).bind fun _ s h => h.congr (by simp)
    · split
      · exact h
      · exact (h.rhs hg (plain_inside k)).bind fun x s h => h.congr (by simp)

theorem bracketArguments (hk : Plain k) (fuel : Nat) (h : Stands o k ls s) :
    Leads (g.bracketArguments fuel) s fun r => Stands o k (ls ++ leavesOf r.1) := by
  induction fuel generalizing ls s with
  | zero => exact h.congr (by simp)
  | succ fuel ih =>
    rw [Grammar.bracketArguments]
    refine (h.rhs hg hk).bind fun x s h => ?_
    rw [leads_atOp]
    split
    · next ht =>
      refine leads_place.2 ((h.next (eq_of_beq ht) rfl).bind fun _ s h => ?_)
      rw [leads_atOp]
      split
      · exact h.congr (by simp)
      · exact (ih h).bind fun r s h => h.congr (by simp)
    · exact h.congr (by simp)

/-- The name of what is declared has no literals, and so it does not matter where it goes. -/
theorem arrayOrInstance {name : Tree} (hname : name.leaves = []) (h : Stands o k ls s) :
    Leads (g.arrayOrInstance name) s fun r s =>
      (∀ n ∈ r.1, n.leaves = []) ∧ Stands o k (ls ++ r.2.leaves) s := by
  unfold Grammar.arrayOrInstance
  refine (h.expectOp "[").bind fun start s h => ?_
  rw [leads_atOp]
  extract_lets rest
  have hrest (r : List Tree × Option Nat) (s : State)
      (h : Stands o (false :: k) (ls ++ leavesOf r.1) s) :
      Leads (rest r) s fun r s => (∀ n ∈ r.1, n.leaves = []) ∧ Stands o k (ls ++ r.2.leaves) s := by
    obtain ⟨args, trailing⟩ := r
    unfold rest
    refine (h.expectOp "]").discard.bind fun _ s h => ?_
    match args with
    | [] =>
      refine (h.type hg).bind fun element s h => ⟨?_, h.congr (by simp)⟩
      simpa using hname
    | [length] =>
      refine (hg.type? h).bind fun element? s h => ?_
      cases element? with
      | some element =>
        cases trailing with
        | some comma =>
          refine (leads_error ..).bind fun _ s hlost => ⟨?_, hlost.stands⟩
          simpa using hname
        | none =>
          refine ⟨?_, h.congr (by simp)⟩
          simpa using hname
      | none => exact ⟨by simp, h.congr (by simp [hname])⟩
    | x :: y :: more => exact ⟨by simp, h.congr (by simp [hname])⟩
  split
  · exact hrest ([], none) s (h.congr (by simp))
  · exact (h.inside (fun h => h.bracketArguments hg (plain_inside k) g.fuel)
      fun _ _ _ h => h).bind hrest

/-! ## Structs -/

/-- An embedded type in brackets, which have been complained about. -/
theorem embeddedInBrackets (hlost : Lost s) :
    Leads (do
      let x ← g.qualified
      if ← Parse.atOp ")" then Parse.next
      return [x]) s fun _ => Lost := by
  have h : Stands .nowhere [] [] s := hlost.stands
  refine (h.qualified hg).bind fun x s h => ?_
  rw [leads_atOp]
  split
  · exact h.lost.next.bind fun _ s hlost => hlost
  · exact h.lost

theorem fieldType (h : Stands o k ls s) :
    Leads g.fieldType s fun ts => Stands o k (ls ++ leavesOf ts) := by
  unfold Grammar.fieldType
  rw [leads_token]
  split
  · -- names and their type, or an embedded type
    refine h.ident.bind fun name s ⟨hname, h⟩ => ?_
    rw [leads_tok]
    split
    · exact (h.qualifiedFrom hg hname).bind fun x s h => h.congr (by simp)
    · split
      · exact h.congr (by simp)
      · refine (h.moreIdents g.fuel).bind fun more s h => ?_
        rw [leads_atOp]
        split
        · exact (h.arrayOrInstance hg hname).bind fun r s ⟨_, h⟩ => h.congr (by simp)
        · exact (h.type hg).bind fun x s h => h.congr (by simp)
  · next ht =>
    refine (h.next ht rfl).bind fun _ s h => ?_
    rw [leads_atOp]
    split
    · refine leads_place.2 ((leads_error ..).bind fun _ s hlost => ?_)
      refine hlost.next.bind fun _ s hlost => ?_
      exact (embeddedInBrackets hg hlost).mono fun _ _ hlost => hlost.stands
    · exact (h.qualified hg).bind fun x s h => h.congr (by simp)
  · refine (leads_error ..).bind fun _ s hlost => ?_
    refine hlost.next.bind fun _ s hlost => ?_
    rw [leads_atOp]
    extract_lets rest
    have hrest (s : State) (hlost : Lost s) :
        Leads (rest ()) s fun ts => Stands o k (ls ++ leavesOf ts) :=
      (embeddedInBrackets hg hlost).mono fun _ _ hlost => hlost.stands
    split
    · exact hlost.next.bind fun _ s hlost => hrest s hlost
    · exact hrest s hlost
  · refine (leads_expected ..).bind fun _ s hlost => ?_
    exact (hlost.advance _).bind fun _ s hlost => hlost.stands

/-- A string behind a field is its tag. -/
theorem field (h : Stands o (true :: k) ls s) :
    Leads g.field s fun t => Stands o (true :: k) (ls ++ t.leaves) := by
  unfold Grammar.field
  refine leads_place.2 ((h.fieldType hg).bind fun type s h => ?_)
  rw [leads_tok]
  extract_lets rest
  have hrest (s : State) (h : Stands o (true :: k) (ls ++ leavesOf type) s) :
      Leads (rest ()) s fun t => Stands o (true :: k) (ls ++ t.leaves) :=
    h.expectSemicolon.bind fun _ s h => h.congr (by simp)
  split
  · next ht =>
    have ht := eq_of_beq ht
    refine (Read.next h (by simp [ht])).bind fun _ s h => hrest s ?_
    rw [ht] at h
    exact Stands.congr h (List.append_nil _)
  · exact hrest s h

theorem structType (h : Stands o k ls s) :
    Leads g.structType s fun t => Stands o k (ls ++ t.leaves) := by
  unfold Grammar.structType
  refine (Read.expect h (.keyword "struct") rfl nofun).bind fun start s h => ?_
  refine (Read.expect h (.op "\x7b") rfl nofun).discard.bind
    fun _ s (h : Stands o (true :: k) ls s) => ?_
  refine (h.whileTok fun h _ => h.field hg).bind fun fields s h => ?_
  exact (h.expectOp "\x7d").discard.bind fun _ s h => h.congr (by simp)

/-! ## Unions -/

theorem unionTerm (h : Stands o k ls s) :
    Leads g.unionTerm s fun t => Stands o k (ls ++ t.leaves) := by
  unfold Grammar.unionTerm
  rw [leads_token]
  split
  · next ht =>
    refine (h.next (eq_of_beq ht) rfl).bind fun _ s h => ?_
    exact (h.type hg).bind fun x s h => h.congr (by simp)
  · refine (hg.type? h).bind fun x? s h => ?_
    cases x? with
    | some x => exact h.congr (by simp)
    | none => exact leads_place.2 (leads_recover ..)

omit hg in
theorem leaves_foldl_union (first : Tree) (rest : List Tree) :
    (rest.foldl (fun x y => Tree.node (.binary "|") x.start [x, y]) first).leaves =
      first.leaves ++ leavesOf rest := by
  induction rest generalizing first with
  | nil => simp
  | cons y rest ih =>
    rw [List.foldl_cons, ih]
    simp

theorem union {x? : Option Tree} (h : Stands o k (ls ++ leavesOf x?.toList) s) :
    Leads (g.union x?) s fun t => Stands o k (ls ++ t.leaves) := by
  unfold Grammar.union
  extract_lets more
  have hmore (first : Tree) (s : State) (h : Stands o k (ls ++ first.leaves) s) :
      Leads (more first) s fun t => Stands o k (ls ++ t.leaves) := by
    refine Leads.bind (h.whileTok (f := Tree.leaves) fun h ht => ?_) fun rest s h => ?_
    · exact (h.next (eq_of_beq ht) rfl).bind fun _ s h => h.unionTerm hg
    · exact h.congr (by simp [leaves_foldl_union])
  cases x? with
  | some x => exact hmore x s (h.congr (by simp))
  | none =>
    have h : Stands o k ls s := h.congr (by simp)
    exact (h.unionTerm hg).bind hmore

/-! ## Parameters -/

theorem dotsType (h : Stands o k ls s) :
    Leads g.dotsType s fun t => Stands o k (ls ++ t.leaves) := by
  unfold Grammar.dotsType
  refine (h.expectOp "...").bind fun start s h => ?_
  exact (h.type hg).bind fun x s h => h.congr (by simp)

end Stands

namespace Grammar.Parameter

/-- The name of a parameter has no literals. -/
def Fits (p : Parameter) : Prop := ∀ n ∈ p.name?, n.leaves = []

theorem fits_of_none (type? : Option Tree) : Fits ⟨none, type?⟩ := by simp [Fits]

theorem fits_of_some {name : Tree} (hname : name.leaves = []) (type? : Option Tree) :
    Fits ⟨some name, type?⟩ := by simpa [Fits] using hname

/-- The literals of a parameter are those of its type. -/
def leaves (p : Parameter) : List Leaf := leavesOf p.type?.toList

@[simp] theorem leaves_typed (name? : Option Tree) (x : Tree) :
    leaves ⟨name?, some x⟩ = x.leaves := List.append_nil _

@[simp] theorem leaves_untyped (name? : Option Tree) : leaves ⟨name?, none⟩ = [] := rfl

end Grammar.Parameter

namespace Stands

open Grammar.Parameter (fits_of_none fits_of_some)

variable (hg : g.Keeps)
include hg

theorem parameter {name? : Option Tree} {unions : Bool} (hname? : ∀ n ∈ name?, n.leaves = [])
    (h : Stands o k ls s) :
    Leads (g.parameter name? unions) s fun p s => p.Fits ∧ Stands o k (ls ++ p.leaves) s := by
  unfold Grammar.parameter
  extract_lets finish rest
  -- a union may go on behind a type
  have hfinish (p : Grammar.Parameter) (s : State) (hp : p.Fits)
      (h : Stands o k (ls ++ p.leaves) s) :
      Leads (finish p) s fun p s => p.Fits ∧ Stands o k (ls ++ p.leaves) s := by
    obtain ⟨name?, type?⟩ := p
    unfold finish
    cases type? with
    | none => exact ⟨hp, h⟩
    | some x =>
      rw [leads_atOp]
      split
      · exact (h.union hg).bind fun y s h => ⟨hp, h.congr (by simp)⟩
      · exact ⟨hp, h⟩
  have hrest (name : Tree) (s : State) (hname : name.leaves = [] ∧ Stands o k ls s) :
      Leads (rest name) s fun p s => p.Fits ∧ Stands o k (ls ++ p.leaves) s := by
    obtain ⟨hname, h⟩ := hname
    have hnamed (type? : Option Tree) := fits_of_some hname type?
    unfold rest
    rw [leads_tok]
    split
    · refine (h.type hg).bind fun x s h => ?_
      exact hfinish ⟨some name, some x⟩ s (hnamed _) (h.congr (by simp))
    split
    · refine (h.arrayOrInstance hg hname).bind fun r s ⟨hr, h⟩ => ?_
      exact hfinish ⟨r.1, some r.2⟩ s hr (h.congr (by simp))
    split
    · exact (h.dotsType hg).bind fun x s h => ⟨hnamed _, h.congr (by simp)⟩
    split
    · refine (h.qualifiedFrom hg hname).bind fun x s h => ?_
      exact hfinish ⟨none, some x⟩ s (fits_of_none _) (h.congr (by simp))
    split
    · have h : Stands o k (ls ++ leavesOf (none : Option Tree).toList) s := h.congr (by simp)
      exact (h.union hg).bind fun x s h => ⟨hnamed _, h.congr (by simp)⟩
    split
    · have h : Stands o k (ls ++ leavesOf (some name).toList) s := h.congr (by simp [hname])
      exact (h.union hg).bind fun x s h => ⟨fits_of_none _, h.congr (by simp)⟩
    · exact ⟨hnamed _, h.congr (by simp)⟩
  rw [leads_tok]
  split
  · have h : Stands o k (ls ++ leavesOf (none : Option Tree).toList) s := h.congr (by simp)
    exact (h.union hg).bind fun x s h => ⟨fits_of_none _, h.congr (by simp)⟩
  split
  · cases name? with
    | some name => exact hrest name s ⟨hname? name rfl, h⟩
    | none => exact h.ident.bind hrest
  split
  · refine (h.type hg).bind fun x s h => ?_
    exact hfinish ⟨none, some x⟩ s (fits_of_none _) (h.congr (by simp))
  split
  · exact (h.dotsType hg).bind fun x s h => ⟨fits_of_none _, h.congr (by simp)⟩
  · refine leads_place.2 ((leads_expected ..).bind fun _ s hlost => ?_)
    exact (hlost.advance _).bind fun _ s hlost => ⟨fits_of_none _, hlost.stands⟩

/-- The first parameter may be read already, if the loop may run at all. -/
theorem parametersFrom {close : String} {unions : Bool} {fuel : Nat}
    {first? : Option Grammar.Parameter} (hfirst? : ∀ p ∈ first?, p.Fits)
    (hfuel : first? = none ∨ 0 < fuel)
    (h : Stands o k (ls ++ first?.toList.flatMap Grammar.Parameter.leaves) s) :
    Leads (g.parametersFrom close unions fuel first?) s fun ps s =>
      (∀ p ∈ ps, p.Fits) ∧ Stands o k (ls ++ ps.flatMap Grammar.Parameter.leaves) s := by
  induction fuel generalizing ls s first? with
  | zero =>
    have hnone : first? = none := by simpa using hfuel
    subst hnone
    exact ⟨by simp, h⟩
  | succ fuel ih =>
    rw [Grammar.parametersFrom, leads_tok]
    extract_lets rest
    have hrest (p : Grammar.Parameter) (s : State)
        (hp : p.Fits ∧ Stands o k (ls ++ p.leaves) s) :
        Leads (rest p) s fun ps s =>
          (∀ p ∈ ps, p.Fits) ∧ Stands o k (ls ++ ps.flatMap Grammar.Parameter.leaves) s := by
      obtain ⟨hp, h⟩ := hp
      unfold rest
      extract_lets here
      have hhere : (∀ q ∈ here, q.Fits) ∧ here.flatMap Grammar.Parameter.leaves = p.leaves := by
        obtain ⟨name?, type?⟩ := p
        cases name? <;> cases type? <;> simp [here, hp]
      refine (h.atComma _ _).bind fun more s ⟨h, hcomma⟩ => ?_
      split
      · next hmore =>
        refine (h.pass (hcomma hmore) rfl).bind fun _ s h => ?_
        have h : Stands o k (ls ++ p.leaves ++ List.flatMap Grammar.Parameter.leaves []) s :=
          h.congr (by simp)
        refine (ih (by simp) (.inl rfl) h).bind fun ps s ⟨hps, h⟩ => ⟨?_, h.congr ?_⟩
        · intro q hq
          exact (List.mem_append.1 hq).elim (hhere.1 q) (hps q)
        · rw [List.flatMap_append, hhere.2, List.append_assoc]
      · exact ⟨hhere.1, h.congr (by rw [hhere.2])⟩
    split
    · next hstop =>
      have hnone : first? = none := by
        rw [Bool.and_eq_true, Option.isNone_iff_eq_none] at hstop
        exact hstop.1
      subst hnone
      exact ⟨by simp, h⟩
    · match first? with
      | some ⟨name?, some type⟩ =>
        have h : Stands o k (ls ++ leavesOf (some type).toList) s := h.congr (by simp)
        have hp (x : Tree) : Grammar.Parameter.Fits ⟨name?, some x⟩ := hfirst? ⟨name?, some type⟩ rfl
        dsimp only
        split
        · exact (h.union hg).bind fun x s h => hrest _ s ⟨hp x, h.congr (by simp)⟩
        · exact hrest _ s ⟨hp type, h.congr (by simp)⟩
      | some ⟨name?, none⟩ =>
        have h : Stands o k ls s := h.congr (by simp)
        exact (h.parameter hg (hfirst? _ rfl)).bind hrest
      | none =>
        have h : Stands o k ls s := h.congr (by simp)
        exact (h.parameter hg (by simp)).bind hrest

omit hg in
/-- Names have no literals, so that it does not matter whether they are taken for types. -/
theorem leaves_types {ps : List Grammar.Parameter} (hps : ∀ p ∈ ps, p.Fits) (nameless : Bool) :
    leavesOf (ps.filterMap fun p => if nameless then p.type?.or p.name? else p.type?) =
      ps.flatMap Grammar.Parameter.leaves := by
  induction ps with
  | nil => rfl
  | cons p ps ih =>
    have hp : p.Fits := hps p List.mem_cons_self
    rw [List.flatMap_cons, ← ih fun q hq => hps q (List.mem_cons_of_mem p hq)]
    obtain ⟨name?, type?⟩ := p
    cases type? with
    | some x => cases nameless <;> simp
    | none =>
      cases name? with
      | none => cases nameless <;> simp
      | some n =>
        have hn : n.leaves = [] := hp n rfl
        cases nameless <;> simp [hn]

theorem parameterList {first? : Option Grammar.Parameter} {role : Grammar.ParameterRole}
    (hfirst? : ∀ p ∈ first?, p.Fits)
    (h : Stands o k (ls ++ first?.toList.flatMap Grammar.Parameter.leaves) s) :
    Leads (g.parameterList first? role) s fun ts => Stands o k (ls ++ leavesOf ts) := by
  unfold Grammar.parameterList
  extract_lets unions
  rw [leads_place]
  extract_lets start
  refine (h.parametersFrom hg hfirst? (.inr hg.fuel)).bind fun ps s ⟨hps, h⟩ => ?_
  extract_lets named typed types dots? finish rest
  clear_value dots?
  have hfinish (s : State) (h : Stands o k (ls ++ ps.flatMap Grammar.Parameter.leaves) s) :
      Leads (finish ()) s fun ts => Stands o k (ls ++ leavesOf ts) :=
    h.congr (by rw [leaves_types hps])
  have hrest (s : State) (h : Stands o k (ls ++ ps.flatMap Grammar.Parameter.leaves) s) :
      Leads (rest ()) s fun ts => Stands o k (ls ++ leavesOf ts) := by
    unfold rest
    split
    · exact (leads_error ..).bind fun _ s hlost => hfinish s hlost.stands
    · exact hfinish s h
  have hwrong (offset : Nat) (f : Fault) :
      Leads (Parse.error offset f >>= rest) s fun ts => Stands o k (ls ++ leavesOf ts) :=
    (leads_error ..).bind fun _ s hlost => hrest s hlost.stands
  -- the names are as they should be, or something is wrong with one of them
  split
  · split
    · split
      · split
        · exact leads_place.2 (hwrong ..)
        · exact hwrong ..
      · exact hrest s h
    · split
      · split
        · split
          · exact leads_place.2 (hwrong ..)
          · split
            · exact hwrong ..
            · exact hwrong ..
        · exact hrest s h
      · exact hrest s h
  · exact hrest s h

theorem typeParameters (h : Stands o k ls s) :
    Leads g.typeParameters s fun r => Stands o k (ls ++ leavesOf r.2) := by
  unfold Grammar.typeParameters
  rw [leads_atOp]
  split
  · next ht =>
    refine leads_place.2 ((h.next (eq_of_beq ht) rfl).bind fun _ s h => ?_)
    have h : Stands o (false :: k) (ls ++ List.flatMap Grammar.Parameter.leaves []) s :=
      h.congr (List.append_nil _).symm
    have hlist : Leads (g.parameterList none .types) s fun ts =>
        Stands o (false :: k) (ls ++ leavesOf ts) := h.parameterList hg (by simp)
    refine hlist.bind fun ts s h => ?_
    refine (h.expectOp "]").bind fun close s h => ?_
    split
    · exact (leads_error ..).bind fun _ s hlost => hlost.stands
    · exact h.congr (by simp)
  · exact h.congr (by simp)

theorem parameters {role : Grammar.ParameterRole} (h : Stands o k ls s) :
    Leads (g.parameters role) s fun ts => Stands o k (ls ++ leavesOf ts) := by
  unfold Grammar.parameters
  refine (h.expectOp "(").discard.bind fun _ s h => ?_
  rw [leads_atOp]
  extract_lets rest
  have hrest (ts : List Tree) (s : State) (h : Stands o (false :: k) (ls ++ leavesOf ts) s) :
      Leads (rest ts) s fun ts => Stands o k (ls ++ leavesOf ts) :=
    (h.expectOp ")").discard.bind fun _ s h => h
  have h : Stands o (false :: k) (ls ++ List.flatMap Grammar.Parameter.leaves []) s :=
    h.congr (List.append_nil _).symm
  split
  · exact hrest [] s h
  · exact (h.parameterList hg (by simp)).bind hrest

theorem results (h : Stands o k ls s) :
    Leads g.results s fun ts => Stands o k (ls ++ leavesOf ts) := by
  unfold Grammar.results
  rw [leads_atOp]
  split
  · exact h.parameters hg
  · exact (hg.type? h).bind fun x? s h => h

theorem signature (h : Stands o k ls s) :
    Leads g.signature s fun ts => Stands o k (ls ++ leavesOf ts) := by
  unfold Grammar.signature
  refine (h.parameters hg).bind fun params s h => ?_
  exact (h.results hg).bind fun results s h => h.congr (by simp)

theorem functionType (h : Stands o k ls s) :
    Leads g.functionType s fun t => Stands o k (ls ++ t.leaves) := by
  unfold Grammar.functionType
  refine (h.expectKeyword "func" rfl).bind fun start s h => ?_
  refine (h.typeParameters hg).bind fun ⟨types?, types⟩ s h => ?_
  cases types? with
  | some place? =>
    refine (leads_error ..).bind fun _ s hlost => ?_
    have h : Stands o k (ls ++ leavesOf types) s := hlost.stands
    exact (h.signature hg).bind fun rest s h => h.congr (by simp)
  | none => exact (h.signature hg).bind fun rest s h => h.congr (by simp)

/-! ## Interfaces -/

theorem methodSpec (h : Stands o k ls s) :
    Leads g.methodSpec s fun r => Stands o k (ls ++ r.1.leaves) := by
  unfold Grammar.methodSpec
  refine h.typeName.bind fun x s ⟨hx, h⟩ => ?_
  have hmethod (s : State) (h : Stands o k ls s) :
      Leads (do return (Tree.node .functionType x.start (← g.signature), false)) s fun r =>
        Stands o k (ls ++ r.1.leaves) :=
    (h.signature hg).bind fun ts s h => h.congr (by simp)
  have hembedded : Stands o k (ls ++ x.leaves) s := h.congr (by simp [hx])
  split
  · rw [leads_atOp]
    split
    · exact (hembedded.typeInstance hg).bind fun t s h => h
    · exact hembedded
  rw [leads_atOp]
  split
  · next ht =>
    refine leads_place.2 ((h.next (eq_of_beq ht) rfl).bind fun _ s h => ?_)
    refine (h.inside (fun h => h.expr hg (plain_inside k)) fun _ _ _ h => h).bind fun arg s h => ?_
    rw [leads_tok]
    split
    · -- a method with type parameters, which it may not have
      next hmethod? =>
      rw [Bool.and_eq_true, Bool.and_eq_true] at hmethod?
      have harg := leaves_of_isIdent hmethod?.1.1
      have h : Stands o (false :: k) (ls ++ List.flatMap Grammar.Parameter.leaves
          (some (Grammar.Parameter.mk (some arg) none)).toList) s := h.congr (by simp [harg])
      have hfits : ∀ p ∈ some (Grammar.Parameter.mk (some arg) none), p.Fits := by
        simpa using fits_of_some harg none
      have hparams : Leads (g.parameterList (some ⟨some arg, none⟩) .types) s fun _ s =>
          ∃ ts, Stands o (false :: k) (ls ++ leavesOf ts) s :=
        (h.parameterList hg hfits).mono fun ts s h => ⟨ts, h⟩
      refine hparams.discard.bind fun _ s ⟨ts, h⟩ => ?_
      refine (h.expectOp "]").discard.bind fun _ s h => ?_
      refine (leads_error ..).bind fun _ s hlost => ?_
      have h : Stands o k ls s := hlost.stands
      exact hmethod s h
    · refine (h.atComma _ _).bind fun more s ⟨h, hcomma⟩ => ?_
      extract_lets rest
      have hrest (more : List Tree) (s : State)
          (h : Stands o (false :: k) (ls ++ arg.leaves ++ leavesOf more) s) :
          Leads (rest more) s fun r => Stands o k (ls ++ r.1.leaves) :=
        (h.expectClosing "]" _).bind fun _ s h => h.congr (by simp [hx])
      split
      · next hmore =>
        have h : Stands o (false :: k) (ls ++ arg.leaves) { s with level := s.level + 1 } := h
        refine Leads.bind (Leads.inside ((h.pass (hcomma hmore) rfl).bind fun _ s h => ?_)
          fun _ _ _ h => h) hrest
        exact h.listUntil fun h => h.type hg
      · exact hrest [] s (h.congr (by simp))
  rw [leads_atOp]
  split
  · exact hmethod s h
  · exact hembedded

theorem interfaceElements (fuel : Nat) (h : Stands o k ls s) :
    Leads (g.interfaceElements fuel) s fun ts => Stands o k (ls ++ leavesOf ts) := by
  induction fuel generalizing ls s with
  | zero => exact h.congr (List.append_nil _).symm
  | succ fuel ih =>
    rw [Grammar.interfaceElements, leads_tok]
    extract_lets rest
    have hrest (x : Tree) (s : State) (h : Stands o k (ls ++ x.leaves) s) :
        Leads (rest (some x)) s fun ts => Stands o k (ls ++ leavesOf ts) := by
      refine h.expectSemicolon.bind fun _ s h => ?_
      exact (ih h).bind fun ts s h => h.congr (by simp)
    have hunion (x? : Option Tree) (s : State) (h : Stands o k (ls ++ leavesOf x?.toList) s) :
        Leads (do rest (some (← g.union x?))) s fun ts => Stands o k (ls ++ leavesOf ts) :=
      (h.union hg).bind hrest
    split
    · refine (h.methodSpec hg).bind fun ⟨x, embedded⟩ s h => ?_
      cases embedded with
      | true => exact hunion (some x) s (h.congr (by simp))
      | false => exact hrest x s h
    split
    · exact hunion none s (h.congr (by simp))
    · refine (hg.type? h).bind fun x? s h => ?_
      cases x? with
      | some x => exact hunion (some x) s h
      | none => exact h

theorem interfaceType (h : Stands o k ls s) :
    Leads g.interfaceType s fun t => Stands o k (ls ++ t.leaves) := by
  unfold Grammar.interfaceType
  refine (h.expectKeyword "interface" rfl).bind fun start s h => ?_
  refine (h.expectOp "\x7b").discard.bind fun _ s h => ?_
  refine (h.interfaceElements hg g.fuel).bind fun elements s h => ?_
  exact (h.expectOp "\x7d").discard.bind fun _ s h => h.congr (by simp)

/-! ## Maps and channels -/

theorem mapType (h : Stands o k ls s) :
    Leads g.mapType s fun t => Stands o k (ls ++ t.leaves) := by
  unfold Grammar.mapType
  refine (h.expectKeyword "map" rfl).bind fun start s h => ?_
  refine (h.expectOp "[").discard.bind fun _ s h => ?_
  refine (h.type hg).bind fun key s h => ?_
  refine (h.expectOp "]").discard.bind fun _ s h => ?_
  exact (h.type hg).bind fun value s h => h.congr (by simp)

theorem chanType (h : Stands o k ls s) :
    Leads g.chanType s fun t => Stands o k (ls ++ t.leaves) := by
  unfold Grammar.chanType
  rw [leads_place, leads_atKeyword]
  split
  · next ht =>
    refine (h.next (eq_of_beq ht) rfl).bind fun _ s h => ?_
    rw [leads_place, leads_atOp]
    extract_lets rest
    have hrest (s : State) (h : Stands o k ls s) :
        Leads (rest ()) s fun t => Stands o k (ls ++ t.leaves) :=
      (h.type hg).bind fun value s h => h.congr (by simp)
    split
    · next ht => exact (h.next (eq_of_beq ht) rfl).bind fun _ s h => hrest s h
    · exact hrest s h
  · refine (h.expectOp "<-").bind fun arrow s h => ?_
    refine (h.expectKeyword "chan" rfl).discard.bind fun _ s h => ?_
    exact (h.type hg).bind fun value s h => h.congr (by simp)

/-! ## All types -/

theorem typeOrNone (h : Stands o k ls s) :
    Leads g.typeOrNone s fun t? => Stands o k (ls ++ leavesOf t?.toList) := by
  unfold Grammar.typeOrNone
  refine h.nested (fun {s} h => ?_) fun _ _ _ h => h
  have hsome {p : Parse Tree} (hp : Leads p s fun t => Stands o k (ls ++ t.leaves)) :
      Leads (do return some (← p)) s fun t? => Stands o k (ls ++ leavesOf t?.toList) :=
    hp.bind fun t s h => h.congr (by simp)
  rw [leads_token]
  split
  · exact hsome (h.qualified hg)
  · next ht =>
    refine (h.next ht rfl).bind fun _ s h => ?_
    have h : Stands o (false :: k) (ls ++ leavesOf (none : Option Tree).toList) s :=
      h.congr (List.append_nil _).symm
    exact (h.arrayTypeFrom hg).bind fun t s h => h.congr (by simp)
  · next ht =>
    refine (h.next ht rfl).bind fun _ s h => ?_
    exact (h.type hg).bind fun x s h => h.congr (by simp)
  · exact hsome (h.chanType hg)
  · next ht =>
    refine (h.next ht rfl).bind fun _ s h => ?_
    refine (h.type hg).bind fun x s h => ?_
    exact (h.expectOp ")").discard.bind fun _ s h => h.congr (by simp)
  · exact hsome (h.structType hg)
  · exact hsome (h.functionType hg)
  · exact hsome (h.interfaceType hg)
  · exact hsome (h.mapType hg)
  · exact hsome (h.chanType hg)
  · exact h.congr (by simp)

end Stands

end LiteralAudit.Go
