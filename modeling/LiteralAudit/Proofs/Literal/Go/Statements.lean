import LiteralAudit.Proofs.Literal.Go.Declarations

/-!
# Statements and files keep their literals

The parsers of statements keep the literals of a source if those do that they are given. A grammar that
nests too deep complains, and each level keeps the literals if the one below does; so all of them do
(`grammar_keeps`). The declarations of a file come to its end (`Stands.file`), so that a source without
complaints has all its literals in its trees.
-/

namespace LiteralAudit.Go

open LiteralAudit.Go.Tree

variable {g : Grammar} {o : Origin} {k : List Bool} {ls : List Leaf} {s : State}

namespace Stands

variable (hg : g.Keeps)

/-! ## Simple statements -/

/-- A check that complains at most. -/
theorem asExpression (h : Stands o k ls s) (s? : Option Tree) (wanted : String) :
    Leads (Grammar.asExpression s? wanted) s fun _ => Stands o k ls := by
  unfold Grammar.asExpression
  split
  · exact h
  · split
    · exact h
    · exact (leads_error ..).mono fun _ _ hlost => hlost.stands
    · exact (leads_error ..).mono fun _ _ hlost => hlost.stands

theorem isTypeSwitchGuard (h : Stands o k ls s) (s? : Option Tree) :
    Leads (Grammar.isTypeSwitchGuard s?) s fun _ => Stands o k ls := by
  unfold Grammar.isTypeSwitchGuard
  split
  · exact h
  · split
    · split
      · exact (leads_error ..).bind fun _ s hlost => hlost.stands
      · exact h
    · exact h
  · exact h

/-- Where one expression should stand there is one, or something is wrong. -/
theorem oneExpression {xs : List Tree} (hxs : xs ≠ []) (h : Stands o k (ls ++ leavesOf xs) s)
    (hone : ¬ xs.length > 1) : Stands o k (ls ++ (xs.head?.getD default).leaves) s := by
  match xs with
  | [] => exact absurd rfl hxs
  | [x] => exact h.congr (by simp)
  | _ :: _ :: _ => exact absurd (by simp) hone

theorem nest_of_isAssignment {op : String} (hop : Grammar.isAssignment op) (k : List Bool) :
    (Tok.op op).nest k = k := by
  rw [Grammar.isAssignment, List.contains_iff_mem] at hop
  fin_cases hop <;> rfl

include hg

/-- The parts of what a range clause assigns are all read; so a loop may take them for its own. -/
theorem simpleStatement {role : Grammar.Role} (h : Stands o k ls s) (hk : Plain k) :
    Leads (g.simpleStatement role) s fun r s => Stands o k (ls ++ r.1.leaves) s ∧
      (r.2 → leavesOf r.1.parts = r.1.leaves) := by
  unfold Grammar.simpleStatement
  refine (h.exprs hg hk).bind fun xs s h => ?_
  obtain ⟨hxs, h⟩ := h
  extract_lets x expression
  rw [leads_token]
  split
  · next op ht =>
    split
    · next hop =>
      have hpass := h.next ht rfl
      rw [nest_of_isAssignment hop] at hpass
      refine hpass.bind fun _ s h => ?_
      rw [leads_atKeyword]
      split
      · next hranges =>
        simp only [Bool.and_eq_true] at hranges
        refine leads_place.2 ((h.next (eq_of_beq hranges.1.2) rfl).bind fun _ s h => ?_)
        exact (h.rhs hg hk).bind fun y s h => ⟨h.congr (by simp), fun _ => by simp [Tree.parts]⟩
      · exact (h.exprs hg hk).bind fun ys s h => ⟨h.2.congr (by simp), by simp⟩
    · extract_lets rest
      have hrest (s' : State) (hs' : s'.current.tok = .op op ∨ Lost s')
          (h : Stands o k (ls ++ x.leaves) s') :
          Leads (rest ()) s' fun r s => Stands o k (ls ++ r.1.leaves) s ∧
            (r.2 → leavesOf r.1.parts = r.1.leaves) := by
        unfold rest
        split
        · -- a label, or a colon that is none
          next hop =>
          obtain rfl := eq_of_beq hop
          refine (h.pass hs' rfl).bind fun _ s h => ?_
          split
          · next hlabel =>
            rw [Bool.and_eq_true] at hlabel
            have h : Stands o k ls s := h.congr (by simp [leaves_of_isIdent hlabel.2])
            exact (hg.statement h hk).bind fun body s h => ⟨h.congr (by simp), by simp⟩
          · exact (leads_error ..).bind fun _ s hlost => ⟨hlost.stands, by simp⟩
        split
        · next hop =>
          obtain rfl := eq_of_beq hop
          refine (h.pass hs' rfl).bind fun _ s h => ?_
          exact (h.rhs hg hk).bind fun y s h => ⟨h.congr (by simp), by simp⟩
        split
        · next hop =>
          have hnest : (Tok.op op).nest k = k := by
            rw [Bool.or_eq_true] at hop
            rcases hop with hop | hop <;> obtain rfl := eq_of_beq hop <;> rfl
          have hpass := h.pass hs' rfl
          rw [hnest] at hpass
          exact hpass.bind fun _ s h => ⟨h.congr (by simp), by simp⟩
        · exact ⟨h.congr (by simp), by simp⟩
      split
      · refine (leads_expected ..).bind fun _ s hlost => ?_
        exact hrest s (.inr hlost) hlost.stands
      · next hone => exact hrest s (.inl ht) (h.oneExpression hxs hone)
  · have hexpression (s : State) (h : Stands o k (ls ++ x.leaves) s) :
        Leads (expression ()) s fun r s => Stands o k (ls ++ r.1.leaves) s ∧
          (r.2 → leavesOf r.1.parts = r.1.leaves) := ⟨h.congr (by simp), by simp⟩
    split
    · exact (leads_expected ..).bind fun _ s hlost => hexpression s hlost.stands
    · next hone => exact hexpression s (h.oneExpression hxs hone)

theorem callStatement {w : String} (hw : (Tok.keyword w).isQuiet) (h : Stands o k ls s)
    (hk : Plain k) : Leads (g.callStatement w) s fun t => Stands o k (ls ++ t.leaves) := by
  unfold Grammar.callStatement
  refine (h.expectKeyword w hw).bind fun start s h => ?_
  refine (h.rhs hg hk).bind fun x s h => ?_
  extract_lets finish check
  have hfinish (s : State) (h : Stands o k (ls ++ x.leaves) s) :
      Leads (finish ()) s fun t => Stands o k (ls ++ t.leaves) :=
    h.expectSemicolon.bind fun _ s h => h.congr (by simp)
  have hcheck (s : State) (h : Stands o k (ls ++ x.leaves) s) :
      Leads (check ()) s fun t => Stands o k (ls ++ t.leaves) := by
    unfold check
    split
    · exact hfinish s h
    · exact hfinish s h
    · exact leads_get.2 ((leads_error ..).bind fun _ s hlost => hfinish s hlost.stands)
  split
  · exact (leads_error ..).bind fun _ s hlost => hcheck s hlost.stands
  · exact hcheck s h

theorem returnStatement (h : Stands o k ls s) (hk : Plain k) :
    Leads g.returnStatement s fun t => Stands o k (ls ++ t.leaves) := by
  unfold Grammar.returnStatement
  refine (h.expectKeyword "return" rfl).bind fun start s h => ?_
  rw [leads_tok]
  extract_lets finish
  have hfinish (xs : List Tree) (s : State) (h : Stands o k (ls ++ leavesOf xs) s) :
      Leads (finish xs) s fun t => Stands o k (ls ++ t.leaves) :=
    h.expectSemicolon.bind fun _ s h => h.congr (by simp)
  split
  · exact hfinish [] s (h.congr (by simp))
  · exact (h.exprs hg hk).bind fun xs s h => hfinish xs s h.2

omit hg in
theorem branchStatement {w : String} (hw : (Tok.keyword w).isQuiet) (h : Stands o k ls s) :
    Leads (Grammar.branchStatement w) s fun t => Stands o k (ls ++ t.leaves) := by
  unfold Grammar.branchStatement
  refine (h.expectKeyword w hw).bind fun start s h => ?_
  rw [leads_tok]
  extract_lets finish
  have hfinish (s : State) (h : Stands o k ls s) :
      Leads (finish ()) s fun t => Stands o k (ls ++ t.leaves) :=
    h.expectSemicolon.bind fun _ s h => h.congr (by simp)
  split
  · exact (h.ident.mono fun _ _ h => h.2).discard.bind fun _ s h => hfinish s h
  · exact hfinish s h

/-! ## Compound statements -/

/-- A simple statement of a header, if there is one, and what follows it. -/
theorem headerStatement {α : Type} {absent : Bool} {rest : Option (Tree × Bool) → Parse α}
    {Q : α → State → Prop} (h : Stands o k ls s) (hk : Plain k)
    (hrest : ∀ r? s, Stands o k (ls ++ leavesOf (r?.map Prod.fst).toList) s → Leads (rest r?) s Q) :
    Leads (do
      if absent then
        let r? ← pure none
        rest r?
      else
        let r? ← some <$> g.simpleStatement .plain
        rest r?) s Q := by
  split
  · exact hrest none s (h.congr (by simp))
  · exact (h.simpleStatement hg hk).map_bind fun r s h => hrest (some r) s (h.1.congr (by simp))

theorem ifHeader (h : Stands o k ls s) (hk : Plain k) :
    Leads g.ifHeader s fun ts => Stands o k (ls ++ leavesOf ts) := by
  unfold Grammar.ifHeader
  rw [leads_atOp]
  split
  · exact leads_place.2 ((leads_error ..).bind fun _ s hlost => hlost.stands)
  refine h.asHeader (fun {s} h => ?_) fun _ _ _ h => h
  rw [leads_atOp]
  extract_lets rest withInit
  have hrest (init? : Option Tree) (s : State) (h : Stands o k (ls ++ leavesOf init?.toList) s) :
      Leads (rest init?) s fun ts => Stands o k (ls ++ leavesOf ts) := by
    unfold rest
    rw [leads_atOp]
    split
    · exact (h.asExpression _ _).bind fun _ s h => h
    rw [leads_token]
    refine (h.expectOp ";").discard.bind fun _ s h => ?_
    rw [leads_atOp]
    extract_lets condition
    refine h.headerStatement hg hk fun cond? s h => ?_
    unfold condition
    extract_lets finish
    have hfinish (s : State)
        (h : Stands o k (ls ++ leavesOf init?.toList ++ leavesOf (cond?.map Prod.fst).toList) s) :
        Leads (finish ()) s fun ts => Stands o k (ls ++ leavesOf ts) := h.congr (by simp)
    split
    · exact (h.asExpression _ _).bind fun _ s h => hfinish s h
    · split
      · exact (leads_error ..).bind fun _ s hlost => hfinish s hlost.stands
      · exact hfinish s h
  have hwithInit (s : State) (h : Stands o k ls s) :
      Leads (withInit ()) s fun ts => Stands o k (ls ++ leavesOf ts) :=
    (h.simpleStatement hg hk).bind fun r s h => hrest (some r.1) s (h.1.congr (by simp))
  split
  · exact hrest none s (h.congr (by simp))
  rw [leads_atKeyword]
  split
  · next ht =>
    refine (h.next (eq_of_beq ht) rfl).bind fun _ s h => ?_
    exact leads_place.2 ((leads_error ..).bind fun _ s hlost => hwithInit s hlost.stands)
  · exact hwithInit s h

theorem ifFrom (h : Stands o k ls s) (hk : Plain k) :
    Leads g.ifFrom s fun t => Stands o k (ls ++ t.leaves) := by
  unfold Grammar.ifFrom
  refine h.nested (fun {s} h => ?_) fun _ _ _ h => h
  refine (h.expectKeyword "if" rfl).bind fun start s h => ?_
  refine (h.ifHeader hg hk).bind fun header s h => ?_
  refine (h.block hg).bind fun body s h => ?_
  rw [leads_atKeyword]
  extract_lets finish
  have hfinish (rest : List Tree) (s : State)
      (h : Stands o k (ls ++ leavesOf header ++ body.leaves ++ leavesOf rest) s) :
      Leads (finish rest) s fun t => Stands o k (ls ++ t.leaves) := h.congr (by simp)
  split
  · next ht =>
    refine (h.next (eq_of_beq ht) rfl).bind fun _ s h => ?_
    rw [leads_atKeyword]
    split
    · exact (hg.ifStatement h hk).bind fun other s h => hfinish [other] s (h.congr (by simp))
    rw [leads_atOp]
    split
    · refine (h.block hg).bind fun other s h => ?_
      exact h.expectSemicolon.bind fun _ s h => hfinish [other] s (h.congr (by simp))
    · refine leads_place.2 ((leads_expected ..).bind fun _ s hlost => ?_)
      exact hfinish [] s hlost.stands
  · exact h.expectSemicolon.bind fun _ s h => hfinish [] s (h.congr (by simp))

theorem caseClause (h : Stands o k ls s) (hk : Plain k) :
    Leads g.caseClause s fun t => Stands o k (ls ++ t.leaves) := by
  unfold Grammar.caseClause
  rw [leads_place, leads_atKeyword]
  extract_lets rest
  have hrest (xs : List Tree) (s : State) (h : Stands o k (ls ++ leavesOf xs) s) :
      Leads (rest xs) s fun t => Stands o k (ls ++ t.leaves) := by
    refine (h.expectOp ":").discard.bind fun _ s h => ?_
    exact (h.statements hg hk).bind fun body s h => h.congr (by simp)
  split
  · next ht =>
    refine (h.next (eq_of_beq ht) rfl).bind fun _ s h => ?_
    exact (h.exprs hg hk).bind fun xs s h => hrest xs s h.2
  · refine (h.expectKeyword "default" rfl).discard.bind fun _ s h => ?_
    exact hrest [] s (h.congr (by simp))

theorem switchStatement (h : Stands o k ls s) (hk : Plain k) :
    Leads g.switchStatement s fun t => Stands o k (ls ++ t.leaves) := by
  unfold Grammar.switchStatement
  refine (h.expectKeyword "switch" rfl).bind fun start s h => ?_
  rw [leads_atOp]
  extract_lets rest behindFirst
  have hrest (r : Option Tree × Option Tree) (s : State)
      (h : Stands o k (ls ++ leavesOf r.1.toList ++ leavesOf r.2.toList) s) :
      Leads (rest r) s fun t => Stands o k (ls ++ t.leaves) := by
    obtain ⟨init?, guard?⟩ := r
    unfold rest
    refine (h.isTypeSwitchGuard guard?).bind fun typeSwitch s h => ?_
    refine (h.expectOp "\x7b").discard.bind fun _ s h => ?_
    refine (h.whileTok fun h _ => h.caseClause hg (plain_inside k)).bind fun clauses s h => ?_
    refine (h.expectOp "\x7d").discard.bind fun _ s h => ?_
    refine h.expectSemicolon.bind fun _ s h => ?_
    extract_lets finish
    have hfinish (s : State) (h : Stands o k (ls ++ leavesOf init?.toList ++
        leavesOf guard?.toList ++ leavesOf clauses) s) :
        Leads (finish ()) s fun t => Stands o k (ls ++ t.leaves) := h.congr (by simp)
    split
    · exact (h.asExpression _ _).bind fun _ s h => hfinish s h
    · exact hfinish s h
  split
  · exact hrest (none, none) s (h.congr (by simp))
  refine Leads.bind (h.asHeader (fun {s} h => ?_) fun _ _ _ h => h) hrest
  rw [leads_atOp]
  refine h.headerStatement hg hk fun first? s h => ?_
  unfold behindFirst
  rw [leads_atOp]
  split
  · next ht =>
    refine (h.next (eq_of_beq ht) rfl).bind fun _ s h => ?_
    rw [leads_atOp]
    exact h.headerStatement hg hk fun second? s h => h
  · exact h.congr (by simp)

theorem communication (h : Stands o k ls s) (hk : Plain k) :
    Leads g.communication s fun ts => Stands o k (ls ++ leavesOf ts) := by
  unfold Grammar.communication
  refine (h.exprs hg hk).bind fun xs s ⟨hxs, h⟩ => ?_
  extract_lets x send alone
  rw [leads_token]
  split
  · next ht =>
    have hsend (s : State) (hs : s.current.tok = .op "<-" ∨ Lost s)
        (h : Stands o k (ls ++ x.leaves) s) :
        Leads (send ()) s fun ts => Stands o k (ls ++ leavesOf ts) := by
      refine (h.pass hs rfl).bind fun _ s h => ?_
      exact (h.rhs hg hk).bind fun y s h => h.congr (by simp)
    split
    · exact (leads_expected ..).bind fun _ s hlost => hsend s (.inr hlost) hlost.stands
    · next hone => exact hsend s (.inl (eq_of_beq ht)) (h.oneExpression hxs hone)
  split
  · next ht =>
    have hnext : Leads Parse.next s fun _ => Stands o k (ls ++ leavesOf xs) := by
      rw [Bool.or_eq_true] at ht
      rcases ht with ht | ht
      · exact h.next (eq_of_beq ht) rfl
      · exact h.next (eq_of_beq ht) rfl
    extract_lets receive
    have hreceive (s : State) (hnext : Leads Parse.next s fun _ => Stands o k (ls ++ leavesOf xs)) :
        Leads (receive ()) s fun ts => Stands o k (ls ++ leavesOf ts) := by
      refine hnext.bind fun _ s h => ?_
      exact (h.rhs hg hk).bind fun y s h => h.congr (by simp)
    split
    · refine (leads_expected ..).bind fun _ s hlost => ?_
      exact hreceive s (hlost.next.mono fun _ _ hlost => hlost.stands)
    · exact hreceive s hnext
  · have halone (s : State) (h : Stands o k (ls ++ x.leaves) s) :
        Leads (alone ()) s fun ts => Stands o k (ls ++ leavesOf ts) := h.congr (by simp)
    split
    · exact (leads_expected ..).bind fun _ s hlost => halone s hlost.stands
    · next hone => exact halone s (h.oneExpression hxs hone)

theorem communicationClause (h : Stands o k ls s) (hk : Plain k) :
    Leads g.communicationClause s fun t => Stands o k (ls ++ t.leaves) := by
  unfold Grammar.communicationClause
  rw [leads_place, leads_atKeyword]
  extract_lets rest
  have hrest (parts : List Tree) (s : State) (h : Stands o k (ls ++ leavesOf parts) s) :
      Leads (rest parts) s fun t => Stands o k (ls ++ t.leaves) := by
    refine (h.expectOp ":").discard.bind fun _ s h => ?_
    exact (h.statements hg hk).bind fun body s h => h.congr (by simp)
  split
  · next ht =>
    refine (h.next (eq_of_beq ht) rfl).bind fun _ s h => ?_
    exact (h.communication hg hk).bind hrest
  · refine (h.expectKeyword "default" rfl).discard.bind fun _ s h => ?_
    exact hrest [] s (h.congr (by simp))

theorem selectStatement (h : Stands o k ls s) :
    Leads g.selectStatement s fun t => Stands o k (ls ++ t.leaves) := by
  unfold Grammar.selectStatement
  refine (h.expectKeyword "select" rfl).bind fun start s h => ?_
  refine (h.expectOp "\x7b").discard.bind fun _ s h => ?_
  refine (h.whileTok fun h _ => h.communicationClause hg (plain_inside k)).bind
    fun clauses s h => ?_
  refine (h.expectOp "\x7d").discard.bind fun _ s h => ?_
  exact h.expectSemicolon.bind fun _ s h => h.congr (by simp)

/-! ## Loops -/

/-- The header of a loop; of a range clause all parts are read. -/
theorem forHeader (h : Stands o k ls s) (hk : Plain k) :
    Leads g.forHeader s fun (init, middle?, post, ranges) s =>
      Stands o k (ls ++ leavesOf init ++ leavesOf middle?.toList ++ leavesOf post) s ∧
        (ranges → init = [] ∧ post = [] ∧ ∀ t ∈ middle?, leavesOf t.parts = t.leaves) := by
  unfold Grammar.forHeader
  refine h.asHeader (fun {s} h => ?_) fun _ _ _ h => h
  rw [leads_atOp, leads_atKeyword]
  extract_lets rest
  have hrest (r : Option Tree × Bool) (s : State) (h : Stands o k (ls ++ leavesOf r.1.toList) s)
      (hranges : r.2 → ∀ t ∈ r.1, leavesOf t.parts = t.leaves) :
      Leads (rest r) s fun (init, middle?, post, ranges) s =>
        Stands o k (ls ++ leavesOf init ++ leavesOf middle?.toList ++ leavesOf post) s ∧
          (ranges → init = [] ∧ post = [] ∧ ∀ t ∈ middle?, leavesOf t.parts = t.leaves) := by
    obtain ⟨first?, ranges⟩ := r
    unfold rest
    dsimp -zeta only at h hranges ⊢
    rw [leads_atOp]
    split
    · next hsemi =>
      rw [Bool.and_eq_true] at hsemi
      refine (h.next (eq_of_beq hsemi.2) rfl).bind fun _ s h => ?_
      rw [leads_atOp]
      extract_lets behindSecond
      refine h.headerStatement hg hk fun second? s h => ?_
      unfold behindSecond
      refine h.expectSemicolon.bind fun _ s h => ?_
      rw [leads_atOp]
      exact h.headerStatement hg hk fun third? s h => ⟨h, by simp⟩
    · exact ⟨h.congr (by simp), fun hr => ⟨rfl, rfl, hranges hr⟩⟩
  split
  · exact hrest (none, false) s (h.congr (by simp)) (by simp)
  split
  · next ht =>
    refine leads_place.2 ((h.next (eq_of_beq ht) rfl).bind fun _ s h => ?_)
    refine (h.rhs hg hk).bind fun y s h => hrest (some _, true) s (h.congr (by simp)) fun _ => ?_
    simp [Tree.parts]
  · refine (h.simpleStatement hg hk).bind fun r s h => ?_
    obtain ⟨t, ranges⟩ := r
    obtain ⟨h, hranges⟩ := h
    exact hrest (some t, ranges) s (h.congr (by simp)) (by simpa using hranges)

theorem forStatement (h : Stands o k ls s) (hk : Plain k) :
    Leads g.forStatement s fun t => Stands o k (ls ++ t.leaves) := by
  unfold Grammar.forStatement
  refine (h.expectKeyword "for" rfl).bind fun start s h => ?_
  rw [leads_atOp]
  extract_lets rest
  have hrest (r : List Tree × Option Tree × List Tree × Bool) (s : State)
      (h : Stands o k (ls ++ leavesOf r.1 ++ leavesOf r.2.1.toList ++ leavesOf r.2.2.1) s ∧
        (r.2.2.2 → r.1 = [] ∧ r.2.2.1 = [] ∧ ∀ t ∈ r.2.1, leavesOf t.parts = t.leaves)) :
      Leads (rest r) s fun t => Stands o k (ls ++ t.leaves) := by
    obtain ⟨init, middle?, post, ranges⟩ := r
    obtain ⟨h, hranges⟩ := h
    unfold rest
    refine (h.block hg).bind fun body s h => ?_
    refine h.expectSemicolon.bind fun _ s h => ?_
    split
    · next hr =>
      obtain ⟨rfl, rfl, hmiddle⟩ := hranges hr
      extract_lets finish
      have hfinish (s : State) (h : Stands o k (ls ++ leavesOf [] ++ leavesOf middle?.toList ++
          leavesOf [] ++ body.leaves) s) :
          Leads (finish ()) s fun t => Stands o k (ls ++ t.leaves) := by
        refine h.congr ?_
        cases middle? with
        | none => simp
        | some middle => simp [hmiddle middle rfl]
      split
      · split
        · exact (leads_expected ..).bind fun _ s hlost => hfinish s hlost.stands
        · exact hfinish s h
      · exact hfinish s h
    · exact (h.asExpression _ _).bind fun _ s h => h.congr (by simp)
  split
  · exact hrest ([], none, [], false) s ⟨h.congr (by simp), nofun⟩
  · exact (h.forHeader hg hk).bind hrest

/-! ## All statements -/

omit hg in
theorem noStatement (t : Token) :
    Leads (Grammar.statementFrom.noStatement t) s fun t => Stands o k (ls ++ t.leaves) := by
  unfold Grammar.statementFrom.noStatement
  exact leads_recover ..

theorem statementFrom (h : Stands o k ls s) (hk : Plain k) :
    Leads g.statementFrom s fun t => Stands o k (ls ++ t.leaves) := by
  unfold Grammar.statementFrom
  refine h.nested (fun {s} h => ?_) fun _ _ _ h => h
  rw [leads_token]
  refine .ite (fun _ => ?_) fun _ => ?_
  · refine (h.simpleStatement hg hk).bind fun r s h => ?_
    obtain ⟨t, _⟩ := r
    obtain ⟨h, _⟩ := h
    exact .ite (fun _ => h.expectSemicolon.bind fun _ s h => h) fun _ => h
  split
  · refine .ite (fun _ => ?_) fun _ => ?_
    · exact (h.declaration hg hk).mono fun _ _ h => h.1
    refine .ite (fun hw => ?_) fun _ => ?_
    · rw [Bool.or_eq_true] at hw
      rcases hw with hw | hw <;> obtain rfl := eq_of_beq hw <;> exact h.callStatement hg rfl hk
    refine .ite (fun _ => h.returnStatement hg hk) fun _ => ?_
    refine .ite (fun hw => ?_) fun _ => ?_
    · simp only [Bool.or_eq_true] at hw
      rcases hw with ((hw | hw) | hw) | hw <;> obtain rfl := eq_of_beq hw <;>
        exact h.branchStatement rfl
    refine .ite (fun _ => hg.ifStatement h hk) fun _ => ?_
    refine .ite (fun _ => h.switchStatement hg hk) fun _ => ?_
    refine .ite (fun _ => h.selectStatement hg) fun _ => ?_
    exact .ite (fun _ => h.forStatement hg hk) fun _ => noStatement _
  · refine (h.block hg).bind fun body s h => ?_
    exact h.expectSemicolon.bind fun _ s h => h
  · next ht => exact (h.next ht rfl).bind fun _ s h => h.congr (by simp)
  · exact h.congr (by simp)
  · exact noStatement _

end Stands

/-! ## The grammar -/

/-- What nests too deep is complained about; so every level keeps the literals. -/
theorem grammar_keeps {fuel : Nat} (hfuel : 0 < fuel) (depth : Nat) : (grammar fuel depth).Keeps := by
  induction depth with
  | zero =>
    exact {
      fuel := hfuel
      type? := fun _ => leads_tooDeep
      unary := fun _ _ => leads_tooDeep
      binary := fun _ _ _ => leads_tooDeep
      statement := fun _ _ => leads_tooDeep
      braces := fun _ => leads_tooDeep
      ifStatement := fun _ _ => leads_tooDeep }
  | succ depth ih =>
    exact {
      fuel := hfuel
      type? := fun h => h.typeOrNone ih
      unary := fun h hk => h.unaryExpr ih hk
      binary := fun h hk hleast => h.binaryExpr ih hk hleast
      statement := fun h hk => h.statementFrom ih hk
      braces := fun h => h.compositeFrom ih
      ifStatement := fun h hk => h.ifFrom ih hk }

/-! ## Files -/

namespace Stands

variable (hg : g.Keeps)
include hg

/-- A declaration uses up a token, or something is wrong. -/
theorem nextDeclaration {stops : Tok → Bool} {fuel : Nat} (h : Stands o k ls s) (hk : Plain k)
    (hfuel : Lost s ∨ s.tokens.length ≤ fuel + 1) :
    Leads (g.declaration stops) s fun t s' =>
      Stands o k (ls ++ t.leaves) s' ∧ (Lost s' ∨ s'.tokens.length ≤ fuel) := by
  rcases hfuel with hlost | hfuel
  · have hnowhere : Stands .nowhere k [] s := hlost.stands
    refine (hnowhere.declaration hg hk).mono fun t s' ⟨h', _⟩ => ?_
    exact ⟨h'.lost.stands, .inl h'.lost⟩
  · refine (h.declaration hg hk).mono fun t s' ⟨h', hshort⟩ => ⟨h', ?_⟩
    by_cases hclean : s'.complaints = []
    · exact .inr (Nat.lt_succ_iff.1 ((hshort hclean).trans_le hfuel))
    · exact .inl hclean

/-- The declarations go on to the end of the file, or something is wrong. -/
theorem declarations {imports : Bool} {fuel : Nat} (h : Stands o k ls s) (hk : Plain k)
    (hfuel : Lost s ∨ s.tokens.length ≤ fuel) :
    Leads (declarations g fuel imports) s fun ts s' =>
      Stands o k (ls ++ leavesOf ts) s' ∧ (Lost s' ∨ s'.current.tok = .eof) := by
  induction fuel generalizing ls s imports with
  | zero =>
    refine ⟨h.congr (List.append_nil _).symm, ?_⟩
    by_contra! hneither
    have hclean : s.complaints = [] := not_not.1 hneither.1
    have hends := (h hclean).ends
    rw [List.length_eq_zero_iff.1 (Nat.le_zero.1 (hfuel.resolve_left hneither.1))] at hends
    exact hends
  | succ fuel ih =>
    rw [Go.declarations, leads_atEnd]
    split
    · next ht => exact ⟨h.congr (by simp), .inr (eq_of_beq ht)⟩
    rw [leads_atKeyword]
    extract_lets declare
    have hdeclare (s : State) (h : Stands o k ls s)
        (hfuel : Lost s ∨ s.tokens.length ≤ fuel + 1) :
        Leads (declare ()) s fun ts s' =>
          Stands o k (ls ++ leavesOf ts) s' ∧ (Lost s' ∨ s'.current.tok = .eof) := by
      refine (h.nextDeclaration hg hk hfuel).bind fun d s ⟨h, hfuel⟩ => ?_
      exact (ih h hfuel).bind fun ts s ⟨h, hend⟩ => ⟨h.congr (by simp), hend⟩
    split
    · refine leads_place.2 ((leads_error ..).bind fun _ s hlost => ?_)
      exact hdeclare s hlost.stands (.inl hlost)
    · exact hdeclare s h hfuel

theorem file {tokens : List Token} (h : Stands ⟨tokens, {}⟩ [] [] s)
    (hfuel : tokens.length ≤ g.fuel) :
    Leads (file g) s fun ts s' =>
      Stands ⟨tokens, {}⟩ [] (leavesOf ts) s' ∧ (Lost s' ∨ s'.current.tok = .eof) := by
  unfold Go.file
  rw [leads_get]
  have hwrong (s : State) (hs : (!s.complaints.isEmpty) = true) : Lost s := by
    simpa [Lost] using hs
  split
  · next hs => exact ⟨(hwrong _ hs).stands, .inl (hwrong _ hs)⟩
  refine (h.expectKeyword "package" rfl).discard.bind fun _ s h => ?_
  refine (h.ident.mono fun _ _ h => h.2).discard.bind fun _ s h => ?_
  refine h.expectSemicolon.bind fun _ s h => ?_
  rw [leads_get]
  split
  · next hs => exact ⟨(hwrong _ hs).stands, .inl (hwrong _ hs)⟩
  · next hs =>
    have hclean : s.complaints = [] := by simpa using hs
    have hlength := (Read.length_le h hclean).trans hfuel
    exact h.declarations hg (by simp [Plain]) (.inr hlength)

end Stands

end LiteralAudit.Go
