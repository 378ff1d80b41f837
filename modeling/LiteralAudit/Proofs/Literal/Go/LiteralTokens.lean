import LiteralAudit.Literal.Go.Statement
import Mathlib

/-!
# Literals among the tokens of Go

Which tokens of a file are its literals can be told without its tree. A **context** is what is open
around a token: its brackets, of which those behind `struct` and behind `import` are marked, and
whether the path of an import is still to come. A string is **aside** if it stands directly in marked
brackets, where it is a tag or a path, or if it is the path of an import without brackets.
`literalTokens` are the strings, integers and floating-point numbers that are not aside.

The **leaves** of a tree are its strings, integers and floating-point numbers in the order of its
parts. `Tree.literals` lists what the leaves stand for (`literals_eq_leaves`).
-/

namespace LiteralAudit.Go

/-- What an opening bracket or a string may belong to. -/
inductive Behind where
  | other
  /-- The keyword `struct` stands before. -/
  | struct
  /-- The keyword `import` stands before. -/
  | import
  /-- The keyword `import` and a name for the package, or a dot, stand before. -/
  | importName
  deriving Repr, DecidableEq

/-- What is open around a token: whether the brackets around it hold fields or imports, the innermost
first, and what stands before it. -/
structure Context where
  brackets : List Bool := []
  behind : Behind := .other
  deriving Repr, DecidableEq

/-- The strings, integers and floating-point numbers. -/
def Tok.isValue : Tok → Bool
  | .string | .int | .float => true
  | _ => false

namespace Context

/-- The context behind a token. -/
def after (c : Context) : Tok → Context
  | .op s =>
    if s == "(" then ⟨(c.behind == .import) :: c.brackets, .other⟩
    else if s == "\x7b" then ⟨(c.behind == .struct) :: c.brackets, .other⟩
    else if s == "[" then ⟨false :: c.brackets, .other⟩
    else if s == ")" || s == "]" || s == "\x7d" then ⟨c.brackets.tail, .other⟩
    else if s == "." && c.behind == .import then ⟨c.brackets, .importName⟩
    else ⟨c.brackets, .other⟩
  | .ident => ⟨c.brackets, if c.behind == .import then .importName else .other⟩
  | .keyword k =>
    ⟨c.brackets, if k == "struct" then .struct else if k == "import" then .import else .other⟩
  | _ => ⟨c.brackets, .other⟩

/-- A string in the context is a tag or the path of an import. -/
def isAside (c : Context) : Bool :=
  c.brackets.head? == some true || c.behind == .import || c.behind == .importName

/-- A token in the context is a literal of the program. -/
def keeps (c : Context) (t : Tok) : Bool := t.isValue && !(t == .string && c.isAside)

/-- The context behind several tokens. -/
def through (c : Context) (ts : List Token) : Context := ts.foldl (fun c t => c.after t.tok) c

end Context

/-- The literals of the program among tokens, the first of which stands in a given context. -/
def literalTokensFrom (c : Context) : List Token → List Token
  | [] => []
  | t :: ts =>
    if c.keeps t.tok then t :: literalTokensFrom (c.after t.tok) ts
    else literalTokensFrom (c.after t.tok) ts

/-- The literals of the program among the tokens of a file. -/
def literalTokens (ts : List Token) : List Token := literalTokensFrom {} ts

@[simp] theorem literalTokensFrom_nil (c : Context) : literalTokensFrom c [] = [] := rfl

theorem literalTokensFrom_cons (c : Context) (t : Token) (ts : List Token) :
    literalTokensFrom c (t :: ts) =
      (if c.keeps t.tok then [t] else []) ++ literalTokensFrom (c.after t.tok) ts := by
  rw [literalTokensFrom]
  split <;> rfl

theorem literalTokensFrom_append (c : Context) (ts us : List Token) :
    literalTokensFrom c (ts ++ us) =
      literalTokensFrom c ts ++ literalTokensFrom (c.through ts) us := by
  induction ts generalizing c with
  | nil => rfl
  | cons t ts ih =>
    rw [List.cons_append, literalTokensFrom_cons, literalTokensFrom_cons, ih, List.append_assoc]
    rfl

/-! ## Leaves -/

/-- A literal as it is written, and where. -/
structure Leaf where
  tok : Tok
  text : Text
  start : Nat
  deriving Repr, DecidableEq

def Token.leaf (t : Token) : Leaf := ⟨t.tok, t.text, t.start⟩

/-- What a leaf stands for: its value and whether it is a number. -/
def Leaf.value? (l : Leaf) : Option (Text × Bool) := Tree.literal? l.tok l.text

/-- What is listed of a leaf, apart from its line and its binding. -/
def Leaf.listed? (l : Leaf) : Option (Nat × Text × Bool) := l.value?.map (l.start, ·)

/-- The leaves of a tree of a form, of which the parts have the leaves `below`. -/
@[simp]
def Form.leaves (start : Nat) (below : List Leaf) : Form → List Leaf
  | .literal tok text => if tok.isValue then [⟨tok, text, start⟩] else []
  | .aside | .ident _ => []
  | _ => below

namespace Tree

/-- The strings, integers and floating-point numbers of a tree, in the order of its parts. -/
def leaves : Tree → List Leaf
  | node form start parts => form.leaves start (ofParts parts)
where
  ofParts : List Tree → List Leaf
    | [] => []
    | t :: ts => leaves t ++ ofParts ts

/-- The leaves of several trees. -/
def leavesOf (ts : List Tree) : List Leaf := ts.flatMap leaves

@[simp] theorem leavesOf_nil : leavesOf [] = [] := rfl

@[simp] theorem leavesOf_cons (t : Tree) (ts : List Tree) :
    leavesOf (t :: ts) = t.leaves ++ leavesOf ts := rfl

@[simp] theorem flatMap_leaves (ts : List Tree) : ts.flatMap leaves = leavesOf ts := rfl

@[simp] theorem leavesOf_append (ts us : List Tree) :
    leavesOf (ts ++ us) = leavesOf ts ++ leavesOf us := List.flatMap_append

theorem ofParts_eq_leavesOf (ts : List Tree) : leaves.ofParts ts = leavesOf ts := by
  induction ts with
  | nil => rfl
  | cons t ts ih => rw [leaves.ofParts, ih, leavesOf_cons]

@[simp] theorem leaves_node (form : Form) (start : Nat) (parts : List Tree) :
    (node form start parts).leaves = form.leaves start (leavesOf parts) := by
  rw [leaves, ofParts_eq_leavesOf]

/-! ## What the leaves stand for -/

/-- A listed literal, apart from its line and its binding: its place, its value and whether it is a
number. -/
def listed (entry : Nat × Literal) : Nat × Text × Bool :=
  (entry.1, entry.2.value, entry.2.numeric)

theorem listed_of_literal (b : Text) (tok : Tok) (text : Text) (start : Nat) (parts : List Tree) :
    (literals b (node (.literal tok text) start parts)).map listed =
      (leaves (node (.literal tok text) start parts)).filterMap Leaf.listed? := by
  cases tok with
  | string =>
    cases h : Text.unquote? text <;>
      simp [literals, literal?, listed, Leaf.listed?, Leaf.value?, Tok.isValue, h]
  | int | float => rfl
  | _ => rfl

mutual

theorem literals_eq_leaves (b : Text) : ∀ t : Tree,
    (literals b t).map listed = t.leaves.filterMap Leaf.listed?
  | node form start parts => by
    cases form with
    | literal tok text => exact listed_of_literal b tok text start parts
    | aside | ident => rfl
    | assign op targets operator =>
      rw [literals]
      split
      · exact listed_ofParts _ parts 0
      · exact listed_ofParts _ parts 0
    | _ => exact listed_ofParts _ parts 0

theorem listed_ofParts (bs : Nat → Text) : ∀ (ts : List Tree) (i : Nat),
    (literals.ofParts bs ts i).map listed = (leaves.ofParts ts).filterMap Leaf.listed?
  | [], _ => rfl
  | t :: ts, i => by
    rw [literals.ofParts, leaves.ofParts, List.map_append, List.filterMap_append,
      literals_eq_leaves, listed_ofParts]

end

/-- What is listed of several trees is what their leaves stand for. -/
theorem flatMap_literals_eq_leaves (ts : List Tree) :
    (ts.flatMap (literals [])).map listed = (leavesOf ts).filterMap Leaf.listed? := by
  induction ts with
  | nil => rfl
  | cons t ts ih =>
    rw [List.flatMap_cons, List.map_append, ih, literals_eq_leaves, leavesOf_cons,
      List.filterMap_append]

end Tree

end LiteralAudit.Go
