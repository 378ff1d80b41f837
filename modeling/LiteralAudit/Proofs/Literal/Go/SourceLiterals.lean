import LiteralAudit.Proofs.Literal.Go.Scanning

/-!
# The literals of a source

A source that parses was read from its first token to its last, and nothing is noted about any of them
(`parse_spec`). So its trees have the literals among its tokens as their leaves, and what is listed of
the source is one literal for each of them, in their order (`forall₂_denotes_of_literals`): no literal
is lost and none is listed twice, wherever it stands.
-/

namespace LiteralAudit.Go

open LiteralAudit.Go.Tree

/-- The start of a file is read up to its first token. -/
theorem stands_start {layout : Layout} {tokens : List Token} (hends : EndsInEof tokens) {s : State}
    (hs : s = State.record { layout, tokens } (State.current { layout, tokens }).notes) :
    Stands ⟨tokens, {}⟩ [] [] s := by
  subst hs
  intro hclean
  have hnotes : (State.current { layout, tokens }).notes = [] := by
    have hrecorded := (List.append_eq_nil_iff.1 hclean).1
    rwa [List.reverse_eq_nil_iff, List.map_eq_nil_iff] at hrecorded
  refine ⟨hends, ?_, [], rfl, nofun, rfl, rfl⟩
  intro t ht
  have hhead : tokens.head? = some t := ht
  simpa [State.current, hhead] using hnotes

/-- Where the end of the file is the next token, it is the only one. -/
theorem EndsInEof.eq_singleton {s : State} (hends : EndsInEof s.tokens) (ht : s.current.tok = .eof) :
    s.tokens = [s.current] := by
  unfold State.current at ht ⊢
  match hs : s.tokens with
  | [] =>
    rw [hs] at hends
    exact hends.elim
  | [t] => rfl
  | t :: u :: rest =>
    rw [hs] at hends ht
    exact absurd ht hends.1

/-- A source that parses was read to its end, and nothing is noted about any of its tokens. -/
theorem parse_spec {path source : Text} {trees : List Tree} {layout : Layout}
    (h : parse path source = .ok (trees, layout)) :
    (∀ t ∈ (scan path source).1, t.notes = []) ∧
      leavesOf trees = (literalTokens (scan path source).1).map Token.leaf := by
  have hends := scan_endsInEof path source
  unfold parse at h
  dsimp -zeta only at h
  generalize (scan path source).1 = tokens at *
  extract_lets fuel start start' at h
  have hstands : Stands ⟨tokens, {}⟩ [] [] start' := stands_start hends rfl
  have hkeeps : (grammar fuel grammarDepth).Keeps := grammar_keeps (by omega) grammarDepth
  have hlength : tokens.length ≤ (grammar fuel grammarDepth).fuel := by
    show tokens.length ≤ fuel
    omega
  have hfile := hstands.file hkeeps hlength
  unfold Leads at hfile
  unfold EStateM.run at h
  split at hfile
  · next ts s hrun =>
    obtain ⟨hread, hend⟩ := hfile
    rw [hrun] at h
    dsimp only at h
    split at h
    · next hclean =>
      obtain ⟨rfl, -⟩ := Prod.mk.inj (Except.ok.inj h)
      obtain ⟨hends, hnoted, read, hsplit, hnotes, -, hleaves⟩ := hread hclean
      have heof : s.current.tok = .eof := hend.resolve_left fun hlost => hlost hclean
      rw [hends.eq_singleton heof] at hsplit hnoted
      obtain rfl : tokens = read ++ [s.current] := hsplit
      refine ⟨?_, ?_⟩
      · intro t ht
        rcases List.mem_append.1 ht with ht | ht
        · exact hnotes t ht
        · rw [List.mem_singleton.1 ht]
          exact hnoted s.current rfl
      · rw [literalTokens, literalTokensFrom_append, literalTokensFrom_cons, heof, ← hleaves]
        simp [Context.keeps, Tok.isValue]
    · cases h
  · next e s hrun =>
    rw [hrun] at h
    dsimp only at h
    split at h
    · next hclean => exact absurd hclean hfile
    · cases h

theorem mem_of_mem_literalTokensFrom {c : Context} {t : Token} {ts : List Token}
    (h : t ∈ literalTokensFrom c ts) : t ∈ ts ∧ t.tok.isValue := by
  induction ts generalizing c with
  | nil => cases h
  | cons u us ih =>
    rw [literalTokensFrom_cons, List.mem_append] at h
    rcases h with h | h
    · split at h
      · next hkeeps =>
        obtain rfl := List.mem_singleton.1 h
        exact ⟨List.mem_cons_self, (Bool.and_eq_true_iff.1 hkeeps).1⟩
      · cases h
    · exact (ih h).imp_left (List.mem_cons_of_mem _)

/-- Every literal of a source that parses is listed. -/
theorem isSome_listed?_of_mem {path source : Text} {trees : List Tree} {layout : Layout}
    (h : parse path source = .ok (trees, layout)) {t : Token}
    (ht : t ∈ literalTokens (scan path source).1) : t.leaf.listed?.isSome := by
  obtain ⟨hmem, hvalue⟩ := mem_of_mem_literalTokensFrom ht
  have hnotes := (parse_spec h).1 t hmem
  rw [Leaf.listed?, Option.isSome_map, Leaf.value?, Token.leaf]
  dsimp only
  unfold Tree.literal?
  split
  · next htok => simpa using isSome_unquote?_of_scan hmem hnotes htok
  · rfl
  · rfl
  · next hstring hint hfloat => cases htok : t.tok <;> simp_all [Tok.isValue]

theorem forall₂_of_map_eq_filterMap {α β γ : Type} {f : α → Option γ} {g : β → γ} {as : List α}
    {bs : List β} (hsome : ∀ a ∈ as, (f a).isSome) (h : bs.map g = as.filterMap f) :
    List.Forall₂ (fun a b => f a = some (g b)) as bs := by
  induction as generalizing bs with
  | nil =>
    rw [List.filterMap_nil, List.map_eq_nil_iff] at h
    rw [h]
    exact .nil
  | cons a as ih =>
    obtain ⟨c, hc⟩ := Option.isSome_iff_exists.1 (hsome a List.mem_cons_self)
    rw [List.filterMap_cons_some hc] at h
    obtain ⟨b, bs, rfl, rfl, hbs⟩ := List.map_eq_cons_iff.1 h
    exact .cons hc (ih (fun a ha => hsome a (List.mem_cons_of_mem _ ha)) hbs)

/-- The entries of the trees are what is listed of the literals among the tokens, each with its
place. -/
theorem forall₂_listed_of_parse {path source : Text} {trees : List Tree} {layout : Layout}
    (h : parse path source = .ok (trees, layout)) :
    List.Forall₂ (fun t entry => t.leaf.listed? = some (listed entry))
      (literalTokens (scan path source).1) (trees.flatMap (Tree.literals [])) := by
  refine forall₂_of_map_eq_filterMap (fun t ht => isSome_listed?_of_mem h ht) ?_
  rw [flatMap_literals_eq_leaves, (parse_spec h).2, List.filterMap_map]
  rfl

/-- What a literal says is what the token says: a string is unquoted, an integer is written in decimal
if it fits 64 bits, and a floating-point number stays as it is written. -/
def Token.Denotes (t : Token) (l : Literal) : Prop :=
  match t.tok with
  | .string => Text.unquote? t.text = some l.value ∧ l.numeric = false
  | .int => l.value = ((Number.readLiteral? t.text).map Text.ofInt).getD t.text ∧ l.numeric = true
  | .float => l.value = t.text ∧ l.numeric = true
  | _ => False

theorem Token.denotes_of_listed {t : Token} {entry : Nat × Literal} {l : Literal}
    (h : t.leaf.listed? = some (listed entry))
    (hl : (l.value, l.numeric) = (entry.2.value, entry.2.numeric)) :
    t.Denotes l := by
  obtain ⟨value, hvalue, hentry⟩ := Option.map_eq_some_iff.1 h
  have hpair : value = (l.value, l.numeric) := (congrArg Prod.snd hentry).trans hl.symm
  subst hpair
  unfold Leaf.value? Token.leaf Tree.literal? at hvalue
  unfold Token.Denotes
  dsimp only at hvalue
  split at hvalue
  all_goals simp_all

/-- The literals of a source are those among its tokens, one for each in their order. Left out are only
the paths of imports and the tags of fields. -/
theorem forall₂_denotes_of_literals {path source : Text} {ls : List Literal}
    (h : literals path source = .ok ls) :
    List.Forall₂ Token.Denotes (literalTokens (scan path source).1) ls := by
  unfold literals at h
  split at h
  · cases h
  · next trees layout hparse =>
    cases h
    rw [List.forall₂_map_right_iff]
    exact (forall₂_listed_of_parse hparse).imp fun t entry hlisted => t.denotes_of_listed hlisted rfl

/-- Literals in a type, a generic instantiation and a composite literal, with an import and a tag among
them. -/
def nestedSource : Text :=
  "package p\nimport \"m\"\ntype t struct \x7ba [0x2]int `tag`\x7d\nvar x = f[[4]int](\"b\\x41\", t\x7b1.50\x7d)\n"

/-- What its literals stand for, and which are numbers. -/
def nestedValues : List (Text × Bool) := [("2", true), ("4", true), ("bA", false), ("1.50", true)]

theorem denotes_of_nestedSource : ∃ ls, literals [] nestedSource = .ok ls ∧
    List.Forall₂ Token.Denotes (literalTokens (scan [] nestedSource).1) ls ∧
    ls.map (fun l => (l.value, l.numeric)) = nestedValues := by
  have hvalues : (literals [] nestedSource).toOption.map (·.map fun l => (l.value, l.numeric)) =
      some nestedValues := by
    decide +kernel
  cases hls : literals [] nestedSource with
  | error e =>
    rw [hls] at hvalues
    cases hvalues
  | ok ls =>
    rw [hls] at hvalues
    exact ⟨ls, rfl, forall₂_denotes_of_literals hls, Option.some.inj hvalues⟩

end LiteralAudit.Go
