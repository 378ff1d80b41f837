import LiteralAudit.Regex.Search
import Mathlib

/-!
# What an expression matches

An expression leads from one place of a text to another (`Regex.Leads`), and on the way it leaves marks
where groups begin and end. A place is a `Spot`, which knows what a condition can ask about it, and a spot
with the marks so far is a `Trail`. Nothing here tells which of several matches is preferred.

The same is said of the numbered form of an expression, whose repetitions are unfolded
(`Core.Leads`), and the two agree (`Core.leads_ofRegex`).
-/

namespace LiteralAudit

/-! ## Places of a text -/

/-- A place of a text: the number of bytes before it, the character before it, and the runes from it
on. -/
@[ext]
structure Spot where
  place : Nat
  before : Option Char
  rest : List Rune

namespace Spot

/-- The character behind a spot. -/
def after (x : Spot) : Option Char := x.rest.head?.map (·.char)

/-- The spot behind one rune, with the runes behind that. -/
def past (x : Spot) (r : Rune) (rest : List Rune) : Spot := ⟨x.place + r.width, some r.char, rest⟩

/-- Every condition of a list holds at a spot. -/
def Meets (x : Spot) (conditions : List Place) : Prop :=
  ∀ p ∈ conditions, p.holds x.before x.after = true

/-- The runes `w` stand between two spots. -/
structure Passes (x : Spot) (w : List Rune) (y : Spot) : Prop where
  rest : x.rest = w ++ y.rest
  place : y.place = x.place + (w.map (·.width)).sum
  before : y.before = (w.getLast?.map (·.char)).or x.before

namespace Passes

variable {x y z : Spot} {w v : List Rune}

theorem refl (x : Spot) : x.Passes [] x := ⟨rfl, rfl, rfl⟩

theorem past {r : Rune} {rest : List Rune} (h : x.rest = r :: rest) : x.Passes [r] (x.past r rest) :=
  ⟨h, by simp [Spot.past], rfl⟩

theorem trans (h : x.Passes w y) (h' : y.Passes v z) : x.Passes (w ++ v) z := by
  refine ⟨?_, ?_, ?_⟩
  · rw [h.rest, h'.rest, List.append_assoc]
  · rw [h'.place, h.place, List.map_append, List.sum_append, Nat.add_assoc]
  · rw [h'.before, h.before, List.getLast?_append]
    cases v.getLast? <;> simp

theorem eq_of_nil (h : x.Passes [] y) : y = x := by
  obtain ⟨hrest, hplace, hbefore⟩ := h
  exact Spot.ext hplace hbefore hrest.symm

/-- What stands between two spots, but for its first rune. -/
theorem of_cons {r : Rune} {rest : List Rune} (h : x.Passes (r :: w) y) (hrest : x.rest = r :: rest) :
    (x.past r rest).Passes w y := by
  obtain ⟨hrest', hplace, hbefore⟩ := h
  rw [hrest'] at hrest
  refine ⟨(List.cons.inj hrest).2.symm, ?_, ?_⟩
  · rw [hplace, Spot.past, List.map_cons, List.sum_cons, Nat.add_assoc]
  · rw [hbefore, Spot.past]
    cases w with
    | nil => rfl
    | cons c w => rw [List.getLast?_cons_cons]; cases hlast : (c :: w).getLast? <;> simp_all

end Passes

end Spot

/-! ## Marks -/

/-- Where each border of a group was last passed. -/
abbrev Marks := Nat → Option Nat

/-- The marks after borders have been passed at one place. -/
def Marks.pass (m : Marks) (place : Nat) (borders : List Nat) : Marks :=
  fun b => if b ∈ borders then some place else m b

@[simp] theorem Marks.pass_nil (m : Marks) (place : Nat) : m.pass place [] = m := by
  funext b
  simp [Marks.pass]

theorem Marks.pass_pass (m : Marks) (place : Nat) (bs cs : List Nat) :
    (m.pass place bs).pass place cs = m.pass place (bs ++ cs) := by
  funext b
  by_cases hb : b ∈ bs <;> by_cases hc : b ∈ cs <;> simp [Marks.pass, hb, hc]

theorem Marks.pass_congr (m : Marks) (place : Nat) {bs cs : List Nat} (h : ∀ b, b ∈ bs ↔ b ∈ cs) :
    m.pass place bs = m.pass place cs := by
  funext b
  simp [Marks.pass, h b]

/-- A spot, and the marks left on the way to it. -/
structure Trail where
  spot : Spot
  marks : Marks

namespace Trail

/-- The trail after borders have been passed where it has come to. -/
def pass (s : Trail) (borders : List Nat) : Trail :=
  ⟨s.spot, s.marks.pass s.spot.place borders⟩

/-- The trail behind one more rune. -/
def past (s : Trail) (r : Rune) (rest : List Rune) : Trail := ⟨s.spot.past r rest, s.marks⟩

@[simp] theorem spot_pass (s : Trail) (borders : List Nat) : (s.pass borders).spot = s.spot := rfl

@[simp] theorem spot_past (s : Trail) (r : Rune) (rest : List Rune) :
    (s.past r rest).spot = s.spot.past r rest := rfl

@[simp] theorem pass_nil (s : Trail) : s.pass [] = s := by simp [pass]

theorem pass_pass (s : Trail) (bs cs : List Nat) : (s.pass bs).pass cs = s.pass (bs ++ cs) := by
  simp [pass, Marks.pass_pass]

theorem pass_congr (s : Trail) {bs cs : List Nat} (h : ∀ b, b ∈ bs ↔ b ∈ cs) :
    s.pass bs = s.pass cs := by
  simp [pass, Marks.pass_congr _ _ h]

end Trail

/-- `n` steps of a relation, one after the other. -/
def Turns (R : Trail → Trail → Prop) : Nat → Trail → Trail → Prop
  | 0, s, u => s = u
  | n + 1, s, u => ∃ t, R s t ∧ Turns R n t u

theorem turns_add {R : Trail → Trail → Prop} {m n : Nat} {s u : Trail} :
    Turns R (m + n) s u ↔ ∃ t, Turns R m s t ∧ Turns R n t u := by
  induction m generalizing s with
  | zero => simp [Turns]
  | succ m ih =>
    rw [Nat.add_right_comm]
    constructor
    · rintro ⟨t, hst, htu⟩
      obtain ⟨v, htv, hvu⟩ := ih.1 htu
      exact ⟨v, ⟨t, hst, htv⟩, hvu⟩
    · rintro ⟨v, ⟨t, hst, htv⟩, hvu⟩
      exact ⟨t, hst, ih.2 ⟨v, htv, hvu⟩⟩

theorem turns_one {R : Trail → Trail → Prop} {s u : Trail} : Turns R 1 s u ↔ R s u := by
  simp [Turns]

theorem turns_congr {R S : Trail → Trail → Prop} (h : ∀ s t, R s t ↔ S s t) {n : Nat} {s u : Trail} :
    Turns R n s u ↔ Turns S n s u := by
  induction n generalizing s with
  | zero => rfl
  | succ n ih => simp only [Turns, h, ih]

/-! ## Expressions -/

namespace Regex

/-- An expression leads from one trail to another: it matches what is between them, and the marks are
those of its groups. A repetition takes as many turns as it asks for, or more up to its bound. -/
def Leads : Regex → Trail → Trail → Prop
  | .empty, s, t => t = s
  | .chars set, s, t =>
    ∃ r rest, s.spot.rest = r :: rest ∧ set.mem r.char.toNat = true ∧ t = s.past r rest
  | .place p, s, t => p.holds s.spot.before s.spot.after = true ∧ t = s
  | .group n body, s, t => ∃ u, body.Leads (s.pass [2 * n]) u ∧ t = u.pass [2 * n + 1]
  | .seq a b, s, t => ∃ u, a.Leads s u ∧ b.Leads u t
  | .alt a b, s, t => a.Leads s t ∨ b.Leads s t
  | .rep least most _ body, s, t =>
    ∃ n, least ≤ n ∧ (∀ k ∈ most, n ≤ max least k) ∧ Turns body.Leads n s t

/-- The numbers of the groups of an expression. -/
def groups : Regex → List Nat
  | .empty | .chars _ | .place _ => []
  | .group n body => n :: body.groups
  | .seq a b | .alt a b => a.groups ++ b.groups
  | .rep _ _ _ body => body.groups

namespace Leads

/-- An expression matches the runes between two spots. -/
theorem exists_passes {r : Regex} {s t : Trail} (h : r.Leads s t) : ∃ w, s.spot.Passes w t.spot := by
  induction r generalizing s t with
  | empty =>
    obtain rfl : t = s := h
    exact ⟨[], .refl _⟩
  | chars set =>
    obtain ⟨r, rest, hrest, -, rfl⟩ := h
    exact ⟨[r], .past hrest⟩
  | place p =>
    obtain ⟨-, rfl⟩ := h
    exact ⟨[], .refl _⟩
  | group n body ih =>
    obtain ⟨u, hu, rfl⟩ := h
    obtain ⟨w, hw⟩ := ih hu
    exact ⟨w, hw⟩
  | seq a b iha ihb =>
    obtain ⟨u, hsu, hut⟩ := h
    obtain ⟨v, hv⟩ := iha hsu
    obtain ⟨w, hw⟩ := ihb hut
    exact ⟨v ++ w, hv.trans hw⟩
  | alt a b iha ihb =>
    obtain h | h := h
    · exact iha h
    · exact ihb h
  | rep least most greedy body ih =>
    obtain ⟨n, -, -, h⟩ := h
    induction n generalizing s with
    | zero =>
      obtain rfl : s = t := h
      exact ⟨[], .refl _⟩
    | succ n ihn =>
      obtain ⟨u, hsu, hut⟩ := h
      obtain ⟨v, hv⟩ := ih hsu
      obtain ⟨w, hw⟩ := ihn hut
      exact ⟨v ++ w, hv.trans hw⟩

/-- An expression leaves the borders of its own groups only. -/
theorem marks_eq {r : Regex} {s t : Trail} (h : r.Leads s t) {b : Nat} (hb : b / 2 ∉ r.groups) :
    t.marks b = s.marks b := by
  induction r generalizing s t with
  | empty =>
    obtain rfl : t = s := h
    rfl
  | chars set =>
    obtain ⟨r, rest, -, -, rfl⟩ := h
    rfl
  | place p =>
    obtain ⟨-, rfl⟩ := h
    rfl
  | group n body ih =>
    obtain ⟨u, hu, rfl⟩ := h
    obtain ⟨hn, hbody⟩ := not_or.1 (mt List.mem_cons.2 hb)
    have hclose : b ∉ [2 * n + 1] := by
      rw [List.mem_singleton]
      omega
    have hopen : b ∉ [2 * n] := by
      rw [List.mem_singleton]
      omega
    calc (u.pass [2 * n + 1]).marks b = u.marks b := if_neg hclose
      _ = (s.pass [2 * n]).marks b := ih hu hbody
      _ = s.marks b := if_neg hopen
  | seq a b iha ihb =>
    obtain ⟨u, hsu, hut⟩ := h
    obtain ⟨ha, hb⟩ := not_or.1 (mt List.mem_append.2 hb)
    exact (ihb hut hb).trans (iha hsu ha)
  | alt a b iha ihb =>
    obtain ⟨ha, hb⟩ := not_or.1 (mt List.mem_append.2 hb)
    obtain h | h := h
    · exact iha h ha
    · exact ihb h hb
  | rep least most greedy body ih =>
    obtain ⟨n, -, -, h⟩ := h
    induction n generalizing s with
    | zero =>
      obtain rfl : s = t := h
      rfl
    | succ n ihn =>
      obtain ⟨u, hsu, hut⟩ := h
      exact (ihn hut).trans (ih hsu hb)

end Leads

/-! ## Unfolded repetitions -/

namespace Core

/-- What the numbered form of an expression matches. -/
def Leads : Core → Trail → Trail → Prop
  | .empty, s, t => t = s
  | .read _ set, s, t =>
    ∃ r rest, s.spot.rest = r :: rest ∧ set.mem r.char.toNat = true ∧ t = s.past r rest
  | .place p, s, t => p.holds s.spot.before s.spot.after = true ∧ t = s
  | .group n body, s, t => ∃ u, body.Leads (s.pass [2 * n]) u ∧ t = u.pass [2 * n + 1]
  | .seq a b, s, t => ∃ u, a.Leads s u ∧ b.Leads u t
  | .alt a b, s, t => a.Leads s t ∨ b.Leads s t
  | .opt _ body, s, t => t = s ∨ body.Leads s t
  | .loop _ body, s, t => ∃ n, Turns body.Leads (n + 1) s t

section Unfold

variable {R : Trail → Trail → Prop} {cs : List Core}

theorem leads_chain (h : ∀ c ∈ cs, ∀ s t, c.Leads s t ↔ R s t) (last : Core) {s u : Trail} :
    (chain last cs).Leads s u ↔ ∃ t, Turns R cs.length s t ∧ last.Leads t u := by
  induction cs generalizing s with
  | nil => simp [chain, Turns]
  | cons c cs ih =>
    simp only [chain, Leads, List.length_cons, Turns,
      ih fun c hc => h c (List.mem_cons_of_mem _ hc), h c (List.mem_cons_self ..)]
    constructor
    · rintro ⟨v, hsv, t, hvt, htu⟩
      exact ⟨t, ⟨v, hsv, hvt⟩, htu⟩
    · rintro ⟨t, ⟨v, hsv, hvt⟩, htu⟩
      exact ⟨v, hsv, t, hvt, htu⟩

theorem leads_optional (h : ∀ c ∈ cs, ∀ s t, c.Leads s t ↔ R s t) (greedy : Bool) {s u : Trail} :
    (optional greedy cs).Leads s u ↔ ∃ n, n ≤ cs.length ∧ Turns R n s u := by
  induction cs generalizing s with
  | nil =>
    simp only [optional, Leads, List.length_nil, Nat.le_zero]
    constructor
    · rintro rfl
      exact ⟨0, rfl, rfl⟩
    · rintro ⟨n, rfl, rfl⟩
      rfl
  | cons c cs ih =>
    have htail : ∀ c ∈ cs, ∀ s t, c.Leads s t ↔ R s t := fun c hc => h c (List.mem_cons_of_mem _ hc)
    have hstep : (optional greedy (c :: cs)).Leads s u ↔
        u = s ∨ ∃ t, R s t ∧ (optional greedy cs).Leads t u := by
      cases cs with
      | nil => simp [optional, Leads, h c]
      | cons d ds => simp [optional, Leads, h c]
    rw [hstep]
    constructor
    · rintro (rfl | ⟨t, hst, htu⟩)
      · exact ⟨0, Nat.zero_le _, rfl⟩
      · obtain ⟨n, hn, hturns⟩ := (ih htail).1 htu
        exact ⟨n + 1, Nat.succ_le_succ hn, t, hst, hturns⟩
    · rintro ⟨n, hn, hturns⟩
      cases n with
      | zero => exact .inl hturns.symm
      | succ n =>
        obtain ⟨t, hst, htu⟩ := hturns
        exact .inr ⟨t, hst, (ih htail).2 ⟨n, Nat.le_of_succ_le_succ hn, htu⟩⟩

theorem leads_loop {c : Core} (h : ∀ s t, c.Leads s t ↔ R s t) (greedy : Bool) {s u : Trail} :
    (Core.loop greedy c).Leads s u ↔ ∃ n, Turns R (n + 1) s u := by
  simp only [Leads, turns_congr h]

variable {act : StateM Nat Core}

theorem of_mem_copies {P : Core → Prop} (h : ∀ n, P (act n).1) {k n : Nat} {c : Core}
    (hc : c ∈ (copies act k n).1) : P c := by
  induction k generalizing n with
  | zero => cases hc
  | succ k ih =>
    obtain rfl | hc := List.mem_cons.1 hc
    · exact h n
    · exact ih hc

theorem length_copies (k n : Nat) : (copies act k n).1.length = k := by
  induction k generalizing n with
  | zero => rfl
  | succ k ih => exact congrArg (· + 1) (ih _)

/-- The copies of a body that are optional, behind those that are not. -/
def bounded (greedy : Bool) (turns more : List Core) : Core :=
  match turns.reverse, more with
  | [], more => optional greedy more
  | last :: before, [] => chain last before.reverse
  | _, more => chain (optional greedy more) turns

theorem leads_bounded {more : List Core} (hcs : ∀ c ∈ cs, ∀ s t, c.Leads s t ↔ R s t)
    (hmore : ∀ c ∈ more, ∀ s t, c.Leads s t ↔ R s t) (greedy : Bool) {s u : Trail} :
    (bounded greedy cs more).Leads s u ↔
      ∃ n, cs.length ≤ n ∧ n ≤ cs.length + more.length ∧ Turns R n s u := by
  have hsplit : (∃ t, Turns R cs.length s t ∧ (optional greedy more).Leads t u) ↔
      ∃ n, cs.length ≤ n ∧ n ≤ cs.length + more.length ∧ Turns R n s u := by
    simp only [leads_optional hmore]
    constructor
    · rintro ⟨t, hst, n, hn, htu⟩
      exact ⟨cs.length + n, by omega, by omega, turns_add.2 ⟨t, hst, htu⟩⟩
    · rintro ⟨n, hle, hn, hturns⟩
      obtain ⟨k, rfl⟩ := Nat.exists_eq_add_of_le hle
      obtain ⟨t, hst, htu⟩ := turns_add.1 hturns
      exact ⟨t, hst, k, by omega, htu⟩
  rw [← hsplit]
  unfold bounded
  split
  · next hnil =>
    obtain rfl : cs = [] := by simpa using hnil
    simp [Turns]
  · next last before hcons =>
    obtain rfl : cs = before.reverse ++ [last] := by rw [← List.reverse_reverse cs, hcons]; simp
    rw [leads_chain fun c hc => hcs c (List.mem_append_left _ hc)]
    simp only [List.length_append, List.length_singleton, turns_add, turns_one, optional, Leads,
      hcs last (by simp)]
    constructor
    · rintro ⟨t, hst, htu⟩
      exact ⟨u, ⟨t, hst, htu⟩, rfl⟩
    · rintro ⟨_, ⟨t, hst, htu⟩, rfl⟩
      exact ⟨t, hst, htu⟩
  · exact leads_chain hcs _

theorem unfold_some (least most : Nat) (greedy : Bool) (n : Nat) :
    unfold least (some most) greedy act n =
      (bounded greedy (copies act least n).1 (copies act (most - least) (copies act least n).2).1,
        (copies act (most - least) (copies act least n).2).2) := by
  rcases hturns : copies act least n with ⟨turns, k⟩
  rcases hmore : copies act (most - least) k with ⟨more, m⟩
  simp only [unfold, bounded, bind, StateT.bind, hturns]
  rw [hmore]
  generalize turns.reverse = rev
  cases rev <;> cases more <;> rfl

theorem unfold_none (least : Nat) (greedy : Bool) (n : Nat) :
    unfold least none greedy act n =
      (if least == 0 then .opt greedy (.loop greedy (act (copies act (least - 1) n).2).1)
        else chain (.loop greedy (act (copies act (least - 1) n).2).1) (copies act (least - 1) n).1,
        (act (copies act (least - 1) n).2).2) := rfl

/-- The numbered form of a repetition takes the turns that the repetition may take. -/
theorem leads_unfold (h : ∀ n s t, (act n).1.Leads s t ↔ R s t) (least : Nat) (most : Option Nat)
    (greedy : Bool) (n : Nat) {s u : Trail} :
    (unfold least most greedy act n).1.Leads s u ↔
      ∃ k, least ≤ k ∧ (∀ m ∈ most, k ≤ max least m) ∧ Turns R k s u := by
  have hcopies : ∀ k n, ∀ c ∈ (copies act k n).1, ∀ s t, c.Leads s t ↔ R s t :=
    fun k n c hc => of_mem_copies (P := fun c => ∀ s t, c.Leads s t ↔ R s t) h hc
  cases most with
  | none =>
    rw [unfold_none]
    cases least with
    | zero =>
      show (Core.opt greedy (.loop greedy (act n).1)).Leads s u ↔ _
      rw [Leads, leads_loop (h _)]
      constructor
      · rintro (rfl | ⟨k, hturns⟩)
        · exact ⟨0, Nat.le_refl _, by simp, rfl⟩
        · exact ⟨k + 1, Nat.zero_le _, by simp, hturns⟩
      · rintro ⟨k, -, -, hturns⟩
        cases k with
        | zero => exact .inl hturns.symm
        | succ k => exact .inr ⟨k, hturns⟩
    | succ least =>
      rw [if_neg (by simp), Nat.add_sub_cancel, leads_chain (hcopies _ _), length_copies]
      simp only [leads_loop (h _)]
      constructor
      · rintro ⟨t, hst, k, htu⟩
        exact ⟨least + (k + 1), by omega, by simp, turns_add.2 ⟨t, hst, htu⟩⟩
      · rintro ⟨k, hk, -, hturns⟩
        obtain ⟨j, rfl⟩ := Nat.exists_eq_add_of_le hk
        rw [Nat.add_assoc, Nat.add_comm 1 j] at hturns
        obtain ⟨t, hst, htu⟩ := turns_add.1 hturns
        exact ⟨t, hst, j, htu⟩
  | some most =>
    rw [unfold_some, leads_bounded (hcopies _ _) (hcopies _ _)]
    simp only [length_copies, Option.mem_some_iff, forall_eq']
    refine exists_congr fun k => and_congr_right fun _ => and_congr_left fun _ => ?_
    omega

end Unfold

/-- The numbered form of an expression matches what the expression matches. -/
theorem leads_ofRegex (r : Regex) (n : Nat) (s t : Trail) :
    (ofRegex r n).1.Leads s t ↔ r.Leads s t := by
  induction r generalizing n s t with
  | empty => rfl
  | chars set => rfl
  | place p => rfl
  | group k body ih =>
    show (∃ u, (ofRegex body n).1.Leads _ u ∧ _) ↔ _
    simp only [ih, Regex.Leads]
  | seq a b iha ihb =>
    show (∃ u, (ofRegex a n).1.Leads s u ∧ (ofRegex b (ofRegex a n).2).1.Leads u t) ↔ _
    simp only [iha, ihb, Regex.Leads]
  | alt a b iha ihb =>
    show (ofRegex a n).1.Leads s t ∨ (ofRegex b (ofRegex a n).2).1.Leads s t ↔ _
    simp only [iha, ihb, Regex.Leads]
  | rep least most greedy body ih => exact leads_unfold ih least most greedy n

end Core

end Regex

end LiteralAudit
