import LiteralAudit.Literal.Python.Statement
import LiteralAudit.Proofs.Literal.Python.Nesting
import Mathlib

/-!
# Walks of the statement checks

The checks **walk** over tokens: they count brackets, opened less closed, and look at the tokens where the
counter is zero, until one of them stops the walk (`Walk`). The cuts that the checks make are those of
their walks (`splitOutside_eq_parts`, `splitHeader?_eq_split?`, `checkTarget_eq_visited`), so that all
walks over a logical line are known (`lineWalks`). Each walks over a slice of the line
(`slice_of_mem_lineWalks`), and over levelled tokens a walk is **exact**: it never counts below zero, and
visits the tokens of depth zero that are no brackets (`Walk.exact_of_levelled`).
-/

namespace LiteralAudit.Python

/-- A walk over tokens. Whether a token stops it may depend on those visited before, latest first. -/
structure Walk where
  tokens : List Token
  stops : List Token → Token → Bool

namespace Walk

/-- One step of a walk: the counter after the token, and whether the token was visited and stopped the
walk. -/
structure Pass where
  token : Token
  nest : Int
  visited : Bool := false
  stopped : Bool := false

/-- Auxiliary to `passes`: the counter is `nest`, and `seen` was visited. -/
def passesFrom (stops : List Token → Token → Bool) : Int → List Token → List Token → List Pass
  | _, _, [] => []
  | nest, seen, t :: rest =>
    if t.opens then { token := t, nest := nest + 1 } :: passesFrom stops (nest + 1) seen rest
    else if t.closes then { token := t, nest := nest - 1 } :: passesFrom stops (nest - 1) seen rest
    else if nest == 0 then
      ⟨t, nest, true, stops seen t⟩ ::
        if stops seen t then [] else passesFrom stops nest (t :: seen) rest
    else { token := t, nest := nest } :: passesFrom stops nest seen rest

variable (w : Walk)

/-- The steps of the walk. -/
def passes : List Pass := passesFrom w.stops 0 [] w.tokens

/-- The tokens that the walk visits. -/
def visited : List Token := (w.passes.filter (·.visited)).map (·.token)

/-- What the walk has not come to. -/
def ahead : List Token := w.tokens.drop w.passes.length

/-- Auxiliary to `split?`: the tokens before are in reverse. -/
def splitFrom (ahead : List Token) : List Token → List Pass → Option (List Token × List Token)
  | _, [] => none
  | before, p :: ps =>
    if p.stopped then some (before.reverse, ahead) else splitFrom ahead (p.token :: before) ps

/-- What stands before and after the token that stops the walk, if one does. -/
def split? : Option (List Token × List Token) := splitFrom w.ahead [] w.passes

/-- Auxiliary to `parts`: the current part is in reverse. -/
def partsFrom (sep : Token → Bool) (ahead : List Token) : List Token → List Pass → List (List Token)
  | part, [] => [part.reverse ++ ahead]
  | part, p :: ps =>
    if p.visited && sep p.token then part.reverse :: partsFrom sep ahead [] ps
    else partsFrom sep ahead (p.token :: part) ps

/-- The parts between the separators that the walk visits. -/
def parts (sep : Token → Bool) : List (List Token) := partsFrom sep w.ahead [] w.passes

/-- The tokens up to the first that stops a walk which has visited `seen`. -/
def upTo (stops : List Token → Token → Bool) : List Token → List Token → List Token
  | _, [] => []
  | seen, t :: rest => t :: if stops seen t then [] else upTo stops (t :: seen) rest

/-- The walk never counts below zero, and visits the tokens of depth zero that are no brackets, until
one of them stops it. -/
structure Exact : Prop where
  nonneg : ∀ p ∈ w.passes, 0 ≤ p.nest
  visited_eq : w.visited = upTo w.stops [] (w.tokens.filter fun t => !t.isBracket && t.depth == 0)

end Walk

/-! ## Walks over levelled tokens -/

variable {stops : List Token → Token → Bool} {seen before ts : List Token} {nest : Int} {t : Token}

theorem passesFrom_cons (stops : List Token → Token → Bool) (nest : Int) (seen : List Token) (t : Token)
    (ts : List Token) :
    Walk.passesFrom stops nest seen (t :: ts) =
      if t.isBracket then
        { token := t, nest := nest + t.change } :: Walk.passesFrom stops (nest + t.change) seen ts
      else if nest == 0 then
        ⟨t, nest, true, stops seen t⟩ ::
          if stops seen t then [] else Walk.passesFrom stops nest (t :: seen) ts
      else { token := t, nest := nest } :: Walk.passesFrom stops nest seen ts :=
  t.ite_opens_closes nest
    (fun n => (⟨t, n, false, false⟩ : Walk.Pass) :: Walk.passesFrom stops n seen ts) _

theorem passesFrom_of_levelled (h : Levelled (before ++ ts)) :
    (∀ p ∈ Walk.passesFrom stops (balance before) seen ts, 0 ≤ p.nest) ∧
      ((Walk.passesFrom stops (balance before) seen ts).filter (·.visited)).map (·.token) =
        Walk.upTo stops seen (ts.filter fun t => !t.isBracket && t.depth == 0) := by
  induction ts generalizing before seen with
  | nil => simp [Walk.passesFrom, Walk.upTo]
  | cons t ts ih =>
    have hdepth := h before t ts rfl
    have hnext (seen : List Token) := @ih seen (before ++ [t]) (by simpa using h)
    rw [balance_append, balance_cons, balance_nil, Int.add_zero] at hdepth
    simp only [balance_append, balance_cons, balance_nil, Int.add_zero] at hnext
    have hnonneg : 0 ≤ balance before + t.change := hdepth ▸ Int.natCast_nonneg t.depth
    rw [passesFrom_cons]
    cases hbracket : t.isBracket with
    | true => simpa [hbracket, hnonneg] using hnext seen
    | false =>
      rw [Token.change_of_not_isBracket hbracket, Int.add_zero] at hdepth hnonneg
      rw [Token.change_of_not_isBracket hbracket, Int.add_zero] at hnext
      by_cases hzero : balance before = 0
      · have houter : t.depth = 0 := by omega
        cases hstops : stops seen t with
        | true => simp [hbracket, houter, Walk.upTo, hstops, hzero]
        | false =>
          rw [hzero] at hnext ⊢
          simpa [hbracket, houter, Walk.upTo, hstops] using hnext (t :: seen)
      · have hinner : t.depth ≠ 0 := by omega
        simpa [hzero, hinner, hnonneg] using hnext seen

theorem Walk.exact_of_levelled {w : Walk} (h : Levelled w.tokens) : w.Exact := by
  obtain ⟨hnonneg, hvisited⟩ := @passesFrom_of_levelled w.stops [] [] w.tokens h
  exact ⟨hnonneg, hvisited⟩

/-! ## The cuts of a walk -/

theorem outsideFrom_cons (nest : Int) (t : Token) (ts : List Token) :
    outsideFrom nest (t :: ts) =
      if t.isBracket then outsideFrom (nest + t.change) ts
      else if nest == 0 then t :: outsideFrom nest ts else outsideFrom nest ts :=
  t.ite_opens_closes nest (outsideFrom · ts) _

/-- A walk visits what stands outside all brackets, up to what stops it. -/
theorem visited_passesFrom (ts : List Token) :
    ((Walk.passesFrom stops nest seen ts).filter (·.visited)).map (·.token) =
      Walk.upTo stops seen (outsideFrom nest ts) := by
  induction ts generalizing nest seen with
  | nil => rfl
  | cons t ts ih =>
    rw [passesFrom_cons, outsideFrom_cons]
    cases t.isBracket with
    | true => simp [ih]
    | false =>
      cases nest == 0 with
      | true => cases hstops : stops seen t <;> simp [hstops, Walk.upTo, ih]
      | false => simp [ih]

theorem visited_eq_upTo (w : Walk) : w.visited = Walk.upTo w.stops [] (outside w.tokens) :=
  visited_passesFrom w.tokens

theorem outsideFrom_zero_of_not_isBracket (h : ∀ t ∈ ts, t.isBracket = false) : outsideFrom 0 ts = ts := by
  induction ts with
  | nil => rfl
  | cons t ts ih =>
    have hts := ih fun u hu => h u (List.mem_cons_of_mem t hu)
    simp [outsideFrom_cons, h t List.mem_cons_self, hts]

theorem isBracket_of_mem_outsideFrom (h : t ∈ outsideFrom nest ts) : t.isBracket = false := by
  induction ts generalizing nest with
  | nil => cases h
  | cons u ts ih =>
    rw [outsideFrom_cons] at h
    split_ifs at h with hbracket
    · exact ih h
    · rcases List.mem_cons.1 h with rfl | h
      · exact Bool.eq_false_iff.2 hbracket
      · exact ih h
    · exact ih h

/-- The tokens up to the first with a property. -/
theorem upTo_sublist (stops : List Token → Token → Bool) (seen ts : List Token) :
    (Walk.upTo stops seen ts).Sublist ts := by
  induction ts generalizing seen with
  | nil => exact List.Sublist.refl _
  | cons t ts ih =>
    rw [Walk.upTo]
    split_ifs
    · exact (List.nil_sublist ts).cons_cons t
    · exact (ih (t :: seen)).cons_cons t

/-- The walk over a header of `for`, up to its `in`. -/
def forWalk (header : List Token) : Walk := ⟨header, fun _ t => t.isWord "in"⟩

/-- The walk over a target of an assignment, up to its annotation or a keyword. -/
def targetWalk (target : List Token) : Walk :=
  ⟨target, fun _ t => t.isOp ":" || (t.kind == .name && keywords.contains t.text)⟩

theorem outside_visited (w : Walk) : outside w.visited = w.visited := by
  refine outsideFrom_zero_of_not_isBracket fun t ht => ?_
  rw [visited_eq_upTo] at ht
  exact isBracket_of_mem_outsideFrom ((upTo_sublist _ _ _).subset ht)

/-- Whether a token has the property that stops a walk is told by the walk. -/
theorem any_outside_eq_any_visited (ts : List Token) (p : Token → Bool) :
    (outside ts).any p = (Walk.visited ⟨ts, fun _ t => p t⟩).any p := by
  rw [visited_eq_upTo]
  dsimp only
  generalize outside ts = us
  generalize [] = seen
  induction us generalizing seen with
  | nil => rfl
  | cons t us ih =>
    rw [Walk.upTo]
    cases hp : p t with
    | true => simp [hp]
    | false => simp [hp, ih (t :: seen)]

theorem find?_upTo_takeWhile {p q : Token → Bool} (seen ts : List Token) :
    ((Walk.upTo (fun _ t => p t || q t) seen ts).takeWhile fun t => !p t).find? q =
      (ts.takeWhile fun t => !p t).find? q := by
  induction ts generalizing seen with
  | nil => rfl
  | cons t ts ih =>
    cases hp : p t with
    | true => simp [Walk.upTo, hp]
    | false => cases hq : q t <;> simp [Walk.upTo, hp, hq, ih]

/-- Where nothing before the end of the target stops the walk, it visits all of it. -/
theorem takeWhile_upTo {p q : Token → Bool} (seen : List Token) {ts : List Token}
    (h : (ts.takeWhile fun t => !p t).find? q = none) :
    (Walk.upTo (fun _ t => p t || q t) seen ts).takeWhile (fun t => !p t) = ts.takeWhile fun t => !p t := by
  induction ts generalizing seen with
  | nil => rfl
  | cons t ts ih =>
    cases hp : p t with
    | true => simp [Walk.upTo, hp]
    | false =>
      rw [List.takeWhile_cons_of_pos (by simp [hp])] at h
      cases hq : q t with
      | true => simp [hq] at h
      | false =>
        rw [List.find?_cons_of_neg (by simp [hq])] at h
        simp [Walk.upTo, hp, hq, ih (t :: seen) h]

/-- The check of a target looks at what is visited only. -/
theorem checkTarget_visited (target : List Token) :
    checkTarget (targetWalk target).visited = checkTarget target := by
  have hfind := find?_upTo_takeWhile (p := (·.isOp ":"))
    (q := fun t => t.kind == .name && keywords.contains t.text) [] (outside target)
  rw [checkTarget, checkTarget, outside_visited, visited_eq_upTo]
  dsimp only [targetWalk]
  rw [hfind]
  cases hkeyword : ((outside target).takeWhile fun t => !t.isOp ":").find? fun t =>
      t.kind == .name && keywords.contains t.text with
  | some t => rfl
  | none => rw [takeWhile_upTo [] hkeyword]

theorem splitOutsideFrom_cons (stop sep : Token → Bool) (nest : Int) (part : List Token) (t : Token)
    (ts : List Token) :
    splitOutsideFrom stop sep nest part (t :: ts) =
      if t.isBracket then splitOutsideFrom stop sep (nest + t.change) (t :: part) ts
      else if nest == 0 && stop t then [part.reverse ++ t :: ts]
      else if nest == 0 && sep t then part.reverse :: splitOutsideFrom stop sep nest [] ts
      else splitOutsideFrom stop sep nest (t :: part) ts :=
  t.ite_opens_closes nest (splitOutsideFrom stop sep · (t :: part) ts) _

theorem splitOutsideFrom_eq_partsFrom {stop sep : Token → Bool}
    (h : ∀ t, sep t = true → stop t = false) (part ts : List Token) :
    splitOutsideFrom stop sep nest part ts =
      Walk.partsFrom sep (ts.drop (Walk.passesFrom (fun _ t => stop t) nest seen ts).length) part
        (Walk.passesFrom (fun _ t => stop t) nest seen ts) := by
  induction ts generalizing nest seen part with
  | nil => simp [splitOutsideFrom, Walk.passesFrom, Walk.partsFrom]
  | cons t ts ih =>
    rw [splitOutsideFrom_cons, passesFrom_cons]
    cases t.isBracket with
    | true => simp [Walk.partsFrom, @ih seen]
    | false =>
      cases nest == 0 with
      | false => simp [Walk.partsFrom, @ih seen nest (t :: part)]
      | true =>
        cases hsep : sep t with
        | true => simp [hsep, h t hsep, Walk.partsFrom, @ih (t :: seen) nest []]
        | false => cases stop t <;> simp [hsep, Walk.partsFrom, @ih (t :: seen) nest (t :: part)]

theorem splitOutside_eq_parts {stop sep : Token → Bool} (h : ∀ t, sep t = true → stop t = false)
    (ts : List Token) :
    splitOutside stop sep ts = Walk.parts ⟨ts, fun _ t => stop t⟩ sep :=
  splitOutsideFrom_eq_partsFrom h [] ts

/-- The lambdas among visited tokens, latest first, that wait for their colon. -/
def pendingLambdas : List Token → Nat
  | [] => 0
  | t :: before =>
    if t.isWord "lambda" then pendingLambdas before + 1
    else if t.isOp ":" then pendingLambdas before - 1
    else pendingLambdas before

/-- The walk to the colon that ends a header. -/
def headerWalk (ts : List Token) : Walk :=
  ⟨ts, fun seen t => t.isOp ":" && pendingLambdas seen == 0⟩

theorem splitHeaderFrom_cons (nest : Int) (seen header : List Token) (t : Token) (ts : List Token) :
    splitHeaderFrom nest (pendingLambdas seen) header (t :: ts) =
      if t.isBracket then splitHeaderFrom (nest + t.change) (pendingLambdas seen) (t :: header) ts
      else if nest == 0 then
        if t.isOp ":" && pendingLambdas seen == 0 then some (header.reverse, ts)
        else splitHeaderFrom nest (pendingLambdas (t :: seen)) (t :: header) ts
      else splitHeaderFrom nest (pendingLambdas seen) (t :: header) ts := by
  rw [splitHeaderFrom, t.ite_opens_closes nest fun n => splitHeaderFrom n _ (t :: header) ts]
  congr 1
  rw [pendingLambdas]
  cases nest == 0 with
  | false => rfl
  | true =>
    cases hlambda : t.isWord "lambda" with
    | true =>
      have hname : t.isOp ":" = false := by
        simp only [Token.isWord, Bool.and_eq_true, beq_iff_eq] at hlambda
        simp [Token.isOp, hlambda.1]
      simp [hname]
    | false =>
      cases t.isOp ":" with
      | true => cases pendingLambdas seen == 0 <;> rfl
      | false => rfl

theorem splitHeaderFrom_eq_splitFrom (whole header ts : List Token) :
    splitHeaderFrom nest (pendingLambdas seen) header ts =
      Walk.splitFrom (ts.drop (Walk.passesFrom (headerWalk whole).stops nest seen ts).length) header
        (Walk.passesFrom (headerWalk whole).stops nest seen ts) := by
  induction ts generalizing nest seen header with
  | nil => rfl
  | cons t ts ih =>
    rw [splitHeaderFrom_cons, passesFrom_cons]
    cases t.isBracket with
    | true => simp [Walk.splitFrom, @ih seen]
    | false =>
      cases nest == 0 with
      | false => simp [Walk.splitFrom, @ih seen]
      | true =>
        cases hstop : t.isOp ":" && pendingLambdas seen == 0 with
        | true => simp [headerWalk, hstop, Walk.splitFrom]
        | false =>
          have hstops : (headerWalk whole).stops seen t = false := hstop
          simp [hstops, Walk.splitFrom, @ih (t :: seen)]

theorem splitHeader?_eq_split? (ts : List Token) : splitHeader? ts = (headerWalk ts).split? :=
  @splitHeaderFrom_eq_splitFrom [] 0 ts [] ts

theorem splitHeaderFrom_append (lambdas : Nat) (header front ts : List Token) :
    splitHeaderFrom nest lambdas (header ++ front) ts =
      (splitHeaderFrom nest lambdas header ts).map fun found => (front.reverse ++ found.1, found.2) := by
  induction ts generalizing nest lambdas header with
  | nil => rfl
  | cons t ts ih =>
    have hcons := fun nest lambdas => @ih nest lambdas (t :: header)
    simp only [List.cons_append] at hcons
    simp only [splitHeaderFrom, hcons]
    split_ifs <;> simp

/-- The word that starts a compound statement is passed on the way to its colon. -/
theorem split?_headerWalk_cons {first : Token} (hname : first.kind = .name)
    (hlambda : first.isWord "lambda" = false) (ts : List Token) :
    (headerWalk (first :: ts)).split? =
      (splitHeader? ts).map fun found => (first :: found.1, found.2) := by
  have hop : first.isOp ":" = false := by simp [Token.isOp, hname]
  have hnone : pendingLambdas [first] = 0 := by simp [pendingLambdas, hlambda, hop]
  rw [← splitHeader?_eq_split?]
  show splitHeaderFrom 0 (pendingLambdas []) [] (first :: ts) = _
  rw [splitHeaderFrom_cons, Token.not_isBracket_of_name hname, hop, hnone]
  exact splitHeaderFrom_append 0 [] [first] ts

/-! ## All walks over a logical line -/

/-- The walk over a simple statement, up to a lambda. -/
def assignmentWalk (ts : List Token) : Walk := ⟨ts, fun _ t => t.isWord "lambda"⟩

/-- The walks over a simple statement and its targets. -/
def simpleWalks (ts : List Token) : List Walk :=
  assignmentWalk ts :: (splitOutside (·.isWord "lambda") (·.isOp "=") ts).dropLast.map targetWalk

/-- The walks over a compound statement, over the header of a `for`, and over what follows the colon. -/
def compoundWalks (first : Token) (rest : List Token) : List Walk :=
  headerWalk (first :: rest) ::
    match splitHeader? rest with
    | none => []
    | some (header, body) =>
      (if first.text == "for" then [forWalk header] else []) ++
        if body.isEmpty then [] else simpleWalks body

/-- The walks over one statement. -/
def statementWalks : List Token → List Walk
  | [] => []
  | first :: rest =>
    if first.kind != .name then simpleWalks (first :: rest)
    else if first.text == "async" then statementWalks rest
    else if compoundWords.contains first.text then compoundWalks first rest
    else simpleWalks (first :: rest)

/-- The walks over a logical line that passes its checks. -/
def lineWalks (ts : List Token) : List Walk :=
  ⟨ts, fun _ _ => false⟩ ::
    (splitOutside (fun _ => false) (·.isOp ";") ts).flatMap statementWalks

theorem slice_of_mem_splitOutsideFrom {stop sep : Token → Bool} {front part part' : List Token}
    (hfront : balance front = 0)
    (h : part' ∈ splitOutsideFrom stop sep (balance part.reverse) part ts) :
    Slice (front ++ part.reverse ++ ts) part' := by
  induction ts generalizing front part with
  | nil =>
    obtain rfl : part' = part.reverse := by simpa [splitOutsideFrom] using h
    exact ⟨front, [], rfl, hfront⟩
  | cons t ts ih =>
    have hpush : balance part.reverse + t.change = balance (t :: part).reverse := by simp
    have hline : front ++ part.reverse ++ t :: ts = front ++ (t :: part).reverse ++ ts := by simp
    rw [splitOutsideFrom_cons] at h
    split_ifs at h with hbracket hstop hsep
    · rw [hpush] at h
      rw [hline]
      exact ih hfront h
    · obtain rfl := List.mem_singleton.1 h
      exact ⟨front, [], by simp, hfront⟩
    · rcases List.mem_cons.1 h with rfl | h
      · exact ⟨front, t :: ts, rfl, hfront⟩
      · rw [Bool.and_eq_true, beq_iff_eq] at hsep
        have hchange := Token.change_of_not_isBracket (Bool.eq_false_iff.2 hbracket)
        have hcut : front ++ part.reverse ++ t :: ts =
            (front ++ part.reverse ++ [t]) ++ ([] : List Token).reverse ++ ts := by simp
        rw [hcut]
        refine ih ?_ (by rwa [hsep.1] at h)
        simp [hfront, hsep.1, hchange]
    · rw [← Int.add_zero (balance part.reverse),
        ← Token.change_of_not_isBracket (Bool.eq_false_iff.2 hbracket), hpush] at h
      rw [hline]
      exact ih hfront h

theorem slice_of_mem_splitOutside {stop sep : Token → Bool} {part : List Token}
    (h : part ∈ splitOutside stop sep ts) : Slice ts part :=
  @slice_of_mem_splitOutsideFrom _ _ _ [] [] _ rfl h

theorem splitHeaderFrom_spec {header found body : List Token}
    (h : splitHeaderFrom (balance header.reverse) (pendingLambdas seen) header ts = some (found, body)) :
    ∃ colon, header.reverse ++ ts = found ++ colon :: body ∧ balance found = 0 ∧
      colon.isBracket = false := by
  induction ts generalizing header seen with
  | nil => cases h
  | cons t ts ih =>
    have hpush : balance header.reverse + t.change = balance (t :: header).reverse := by simp
    have hline : header.reverse ++ t :: ts = (t :: header).reverse ++ ts := by simp
    rw [splitHeaderFrom_cons] at h
    split_ifs at h with hbracket hzero hcolon
    · rw [hpush] at h
      rw [hline]
      exact ih h
    · cases h
      exact ⟨t, rfl, eq_of_beq hzero, Bool.eq_false_iff.2 hbracket⟩
    all_goals
      rw [← Int.add_zero (balance header.reverse),
        ← Token.change_of_not_isBracket (Bool.eq_false_iff.2 hbracket), hpush] at h
      rw [hline]
      exact ih h

theorem slices_of_splitHeader? {header body : List Token} (h : splitHeader? ts = some (header, body)) :
    Slice ts header ∧ Slice ts body := by
  obtain ⟨colon, hline, hbalance, hcolon⟩ := @splitHeaderFrom_spec [] _ [] _ _ h
  rw [List.reverse_nil, List.nil_append] at hline
  refine ⟨⟨[], colon :: body, by simp [hline], rfl⟩, header ++ [colon], [], by simp [hline], ?_⟩
  simp [hbalance, Token.change_of_not_isBracket hcolon]

variable {w : Walk}

theorem slice_of_mem_simpleWalks (h : w ∈ simpleWalks ts) : Slice ts w.tokens := by
  rcases List.mem_cons.1 h with rfl | h
  · exact .refl ts
  · obtain ⟨target, htarget, rfl⟩ := List.mem_map.1 h
    exact slice_of_mem_splitOutside (List.mem_of_mem_dropLast htarget)

theorem slice_of_mem_compoundWalks {first : Token} (hfirst : first.kind = .name)
    (h : w ∈ compoundWalks first ts) : Slice (first :: ts) w.tokens := by
  have htail : Slice (first :: ts) ts := .tail (Token.not_isBracket_of_name hfirst)
  rcases List.mem_cons.1 h with rfl | h
  · exact .refl _
  · cases hsplit : splitHeader? ts with
    | none => simp [hsplit] at h
    | some found =>
      obtain ⟨header, body⟩ := found
      obtain ⟨hheader, hbody⟩ := slices_of_splitHeader? hsplit
      simp only [hsplit, List.mem_append] at h
      rcases h with h | h
      · split_ifs at h
        · obtain rfl := List.mem_singleton.1 h
          exact htail.trans hheader
        · cases h
      · split_ifs at h
        · cases h
        · exact (htail.trans hbody).trans (slice_of_mem_simpleWalks h)

theorem slice_of_mem_statementWalks (h : w ∈ statementWalks ts) : Slice ts w.tokens := by
  induction ts with
  | nil => cases h
  | cons first rest ih =>
    rw [statementWalks] at h
    split_ifs at h with hkind hasync hcompound
    · exact slice_of_mem_simpleWalks h
    all_goals have hname : first.kind = .name := by simpa using hkind
    · exact (Slice.tail (Token.not_isBracket_of_name hname)).trans (ih h)
    · exact slice_of_mem_compoundWalks hname h
    · exact slice_of_mem_simpleWalks h

/-- Every walk of the checks is over a part of the line that starts outside all brackets. -/
theorem slice_of_mem_lineWalks (h : w ∈ lineWalks ts) : Slice ts w.tokens := by
  rcases List.mem_cons.1 h with rfl | h
  · exact .refl ts
  · obtain ⟨part, hpart, h⟩ := List.mem_flatMap.1 h
    exact (slice_of_mem_splitOutside hpart).trans (slice_of_mem_statementWalks h)

end LiteralAudit.Python
