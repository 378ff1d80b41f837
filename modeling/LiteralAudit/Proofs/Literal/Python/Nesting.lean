import LiteralAudit.Literal.Python.Statement
import Mathlib

/-!
# Brackets among tokens

Tokens are **nested** when their brackets are: each closes the latest one that is open, which is of its
kind, and in the end none is open (`Nested`). A stack of brackets tells whether they are (`openAfter`,
`nested_of_openAfter`). The **balance** is the number of brackets opened less that of brackets closed, and
tokens are **levelled** when each one's depth is the balance behind it. A **slice** that starts where no
bracket is open is levelled as well (`Slice.levelled`).
-/

namespace LiteralAudit.Python

instance : LawfulBEq Kind where
  eq_of_beq {a b} h := by cases a <;> cases b <;> first | rfl | cases h
  rfl {a} := by cases a <;> rfl

namespace Token

/-- The token is a bracket, opening or closing. -/
def isBracket (t : Token) : Bool := t.opens || t.closes

/-- The bracket `o` is closed by one of its kind. -/
def closedBy (o c : Token) : Bool :=
  (o.isOp "(" && c.isOp ")") || (o.isOp "[" && c.isOp "]") || (o.isOp "\x7b" && c.isOp "\x7d")

/-- How many more brackets are open after the token. -/
def change (t : Token) : Int := if t.opens then 1 else if t.closes then -1 else 0

theorem change_of_opens {t : Token} (h : t.opens = true) : t.change = 1 := if_pos h

theorem closes_of_opens {t : Token} (h : t.opens = true) : t.closes = false := by
  simp only [opens, closes, isOp, Bool.or_eq_true, Bool.and_eq_true, beq_iff_eq] at h ⊢
  rcases h with (h | h) | h <;> rw [h.1, h.2] <;> decide

theorem change_of_closes {t : Token} (h : t.closes = true) : t.change = -1 := by
  cases hopens : t.opens with
  | true =>
    rw [closes_of_opens hopens] at h
    cases h
  | false => simp [change, hopens, h]

theorem change_of_not_isBracket {t : Token} (h : t.isBracket = false) : t.change = 0 := by
  rw [isBracket, Bool.or_eq_false_iff] at h
  simp [change, h.1, h.2]

theorem not_isBracket_of_ne_op {t : Token} (h : t.kind ≠ .op) : t.isBracket = false := by
  simp [isBracket, opens, closes, isOp, h]

theorem not_isBracket_of_name {t : Token} (h : t.kind = .name) : t.isBracket = false :=
  not_isBracket_of_ne_op (by rw [h]; decide)

/-- What counts brackets up and down goes on with one counter. -/
theorem ite_opens_closes {α : Type} (t : Token) (nest : Int) (count : Int → α) (other : α) :
    (if t.opens then count (nest + 1) else if t.closes then count (nest - 1) else other) =
      if t.isBracket then count (nest + t.change) else other := by
  cases hopens : t.opens with
  | true => simp [isBracket, hopens, change_of_opens hopens]
  | false =>
    cases hcloses : t.closes with
    | true => simp [isBracket, hcloses, change_of_closes hcloses, sub_eq_add_neg]
    | false => simp [isBracket, hopens, hcloses]

theorem opens_of_closedBy {o c : Token} (h : o.closedBy c = true) : o.opens = true := by
  simp only [closedBy, Bool.or_eq_true, Bool.and_eq_true] at h
  rcases h with (h | h) | h <;> simp [opens, h.1]

theorem closes_of_closedBy {o c : Token} (h : o.closedBy c = true) : c.closes = true := by
  simp only [closedBy, Bool.or_eq_true, Bool.and_eq_true] at h
  rcases h with (h | h) | h <;> simp [closes, h.2]

end Token

/-! ## Nested tokens -/

/-- The brackets among the tokens are well nested, and none is left open. -/
inductive Nested : List Token → Prop
  | nil : Nested []
  | plain {t : Token} (h : t.isBracket = false) : Nested [t]
  | group {o c : Token} {ts : List Token} (h : o.closedBy c = true) (hts : Nested ts) :
    Nested (o :: ts ++ [c])
  | append {ts us : List Token} (hts : Nested ts) (hus : Nested us) : Nested (ts ++ us)

theorem Nested.plain_append {t : Token} {ts : List Token} (h : t.isBracket = false) (hts : Nested ts) :
    Nested (t :: ts) := .append (.plain h) hts

/-- The brackets that are open after tokens, latest first, where those in the stack were open before.
There are none when a bracket closes one of another kind. -/
def openAfter : List Token → List Token → Option (List Token)
  | stack, [] => some stack
  | stack, t :: ts =>
    if t.opens then openAfter (t :: stack) ts
    else if t.closes then
      match stack with
      | o :: below => if o.closedBy t then openAfter below ts else none
      | [] => none
    else openAfter stack ts

/-- The tokens close the brackets in the stack, with nested tokens before each. -/
inductive Closing : List Token → List Token → Prop
  | done {ts : List Token} (hts : Nested ts) : Closing [] ts
  | close {o c : Token} {stack ts us : List Token} (hts : Nested ts) (h : o.closedBy c = true)
    (hus : Closing stack us) : Closing (o :: stack) (ts ++ c :: us)

theorem Closing.append {stack ts us : List Token} (hts : Nested ts) (hus : Closing stack us) :
    Closing stack (ts ++ us) := by
  cases hus with
  | done hnested => exact .done (hts.append hnested)
  | close hnested h hus =>
    rw [← List.append_assoc]
    exact .close (hts.append hnested) h hus

theorem closing_of_openAfter {stack ts : List Token} (h : openAfter stack ts = some []) :
    Closing stack ts := by
  induction ts generalizing stack with
  | nil =>
    obtain rfl : stack = [] := by simpa [openAfter] using h
    exact .done .nil
  | cons t ts ih =>
    rw [openAfter.eq_def] at h
    dsimp only at h
    split_ifs at h with hopens hcloses
    · -- The bracket is closed later on, by the first that the tokens behind it close.
      cases ih h with
      | @close _ c _ inside after hnested hpair hus =>
        have hgroup : t :: (inside ++ c :: after) = (t :: inside ++ [c]) ++ after := by simp
        rw [hgroup]
        exact Closing.append (.group hpair hnested) hus
    · cases stack with
      | nil => cases h
      | cons o below =>
        dsimp only at h
        split_ifs at h with hpair
        exact .close .nil hpair (ih h)
    · exact Closing.append (.plain (by simp [Token.isBracket, hopens, hcloses])) (ih h)

theorem nested_of_openAfter {ts : List Token} (h : openAfter [] ts = some []) : Nested ts := by
  cases closing_of_openAfter h with
  | done hts => exact hts

theorem openAfter_append {stack opened ts us : List Token} (h : openAfter stack ts = some opened) :
    openAfter stack (ts ++ us) = openAfter opened us := by
  induction ts generalizing stack with
  | nil =>
    obtain rfl : stack = opened := by simpa [openAfter] using h
    rfl
  | cons t ts ih =>
    rw [openAfter.eq_def] at h
    rw [List.cons_append, openAfter.eq_def]
    dsimp only at h ⊢
    split_ifs at h ⊢ with hopens hcloses
    · exact ih h
    · cases stack with
      | nil => cases h
      | cons o below =>
        dsimp only at h ⊢
        split_ifs at h ⊢
        exact ih h
    · exact ih h

/-! ## Balance and depths -/

/-- How many more brackets are open after the tokens than before. -/
def balance (ts : List Token) : Int := (ts.map Token.change).sum

@[simp] theorem balance_nil : balance [] = 0 := rfl

@[simp] theorem balance_cons (t : Token) (ts : List Token) :
    balance (t :: ts) = t.change + balance ts := by
  simp [balance]

@[simp] theorem balance_append (ts us : List Token) :
    balance (ts ++ us) = balance ts + balance us := by
  simp [balance]

theorem balance_of_nested {ts : List Token} (h : Nested ts) : balance ts = 0 := by
  induction h with
  | nil => rfl
  | plain h => simp [Token.change_of_not_isBracket h]
  | group h _ ih =>
    have hopen := Token.change_of_opens (Token.opens_of_closedBy h)
    have hclose := Token.change_of_closes (Token.closes_of_closedBy h)
    simp [ih, hopen, hclose]
  | append _ _ ih ih' => rw [balance_append, ih, ih', Int.add_zero]

theorem length_openAfter {stack opened ts : List Token} (h : openAfter stack ts = some opened) :
    (opened.length : Int) = stack.length + balance ts := by
  induction ts generalizing stack with
  | nil =>
    obtain rfl : stack = opened := by simpa [openAfter] using h
    simp
  | cons t ts ih =>
    rw [openAfter.eq_def] at h
    dsimp only at h
    rw [balance_cons]
    split_ifs at h with hopens hcloses
    · rw [ih h, Token.change_of_opens hopens, List.length_cons]
      omega
    · cases stack with
      | nil => cases h
      | cons o below =>
        dsimp only at h
        split_ifs at h
        rw [ih h, Token.change_of_closes hcloses, List.length_cons]
        omega
    · rw [ih h, Token.change_of_not_isBracket (by simp [Token.isBracket, hopens, hcloses])]
      omega

/-- Each token's depth is the number of brackets open after it. -/
def Levelled (ts : List Token) : Prop :=
  ∀ before t after, ts = before ++ t :: after → (t.depth : Int) = balance (before ++ [t])

theorem levelled_nil : Levelled [] := by
  intro before t after h
  simp at h

theorem Levelled.concat {ts : List Token} {t : Token} (h : Levelled ts)
    (ht : (t.depth : Int) = balance (ts ++ [t])) : Levelled (ts ++ [t]) := by
  intro before u after hsplit
  rcases List.eq_nil_or_concat' after with rfl | ⟨after, v, rfl⟩
  · obtain ⟨rfl, hu⟩ := List.append_inj' hsplit rfl
    obtain rfl : t = u := by simpa using hu
    exact ht
  · rw [← List.cons_append, ← List.append_assoc] at hsplit
    exact h before u after (List.append_inj' hsplit rfl).1

/-- A part of the tokens that starts where no bracket is open. -/
def Slice (ts part : List Token) : Prop := ∃ before after, ts = before ++ part ++ after ∧ balance before = 0

namespace Slice

variable {ts us vs : List Token}

theorem refl (ts : List Token) : Slice ts ts := ⟨[], [], by simp, rfl⟩

theorem trans (h : Slice ts us) (h' : Slice us vs) : Slice ts vs := by
  obtain ⟨before, after, rfl, hbalance⟩ := h
  obtain ⟨before', after', rfl, hbalance'⟩ := h'
  refine ⟨before ++ before', after' ++ after, by simp, ?_⟩
  rw [balance_append, hbalance, hbalance', Int.add_zero]

theorem levelled (h : Slice ts us) (hts : Levelled ts) : Levelled us := by
  obtain ⟨front, back, rfl, hfront⟩ := h
  intro before t after hus
  have hdepth := hts (front ++ before) t (after ++ back) (by simp [hus])
  rw [hdepth, List.append_assoc, balance_append, hfront, Int.zero_add]

theorem tail {t : Token} (ht : t.isBracket = false) : Slice (t :: ts) ts :=
  ⟨[t], [], by simp, by simp [Token.change_of_not_isBracket ht]⟩

end Slice

end LiteralAudit.Python
