import LiteralAudit.Proofs.Text.Cuts
import LiteralAudit.Proofs.Text.LineEnds
import LiteralAudit.Url

/-!
# Addresses in parts

What `Url.read` takes for an address with a scheme and a host is spelled in parts (`Url.Parts`): a scheme,
an authority, and a path, a query and a fragment, each of which may be empty (`Url.Parts.exists_parts`).
An address in parts is read part by part (`Url.Parts.read_text`), so that it is known which are read at all
(`Url.Parts.Readable`).

Part after part, bytes of which none starts an escape are read with what stands before them
(`Url.unescape_append`).
-/

namespace LiteralAudit

namespace Url

/-! ## Escapes -/

/-- A reading gives a value when a condition is met, and fails otherwise. -/
def Gives {ε α : Type} (result : Except ε α) (met : Bool) (value : α) : Prop :=
  if met then result = .ok value else ∃ e, result = .error e

theorem Gives.bind {ε α β : Type} {result : Except ε α} {met : Bool} {value : α} {f : α → Except ε β}
    {value' : β} (h : Gives result met value) (hf : f value = .ok value') :
    Gives (result >>= f) met value' := by
  cases met with
  | true =>
    have hok : result = .ok value := h
    rw [hok]
    exact hf
  | false =>
    obtain ⟨e, rfl⟩ : ∃ e, result = .error e := h
    exact ⟨e, rfl⟩

/-- Whether a byte that starts no escape may stand in a part. -/
def admits (part : UrlPart) (b : UInt8) : Bool :=
  !((part == .host || part == .zone) && b < 0x80 && needsEscape part b)

/-- Without a percent sign every byte stands for itself. -/
theorem unescapeFrom_plain {part : UrlPart} {fuel : Nat} {done t : Text} (hfuel : t.length ≤ fuel)
    (h : ('%' : UInt8) ∉ t) :
    Gives (unescapeFrom part fuel done t) (t.all (admits part)) (done.reverse ++ t) := by
  induction t generalizing fuel done with
  | nil => cases fuel <;> simp [Gives, unescapeFrom]
  | cons b t ih =>
    obtain ⟨fuel, rfl⟩ : ∃ k, fuel = k + 1 := ⟨fuel - 1, by simp at hfuel; omega⟩
    obtain ⟨hb, ht⟩ := List.ne_and_not_mem_of_not_mem_cons h
    have hpercent : ¬ (b == '%') = true := by
      rw [beq_iff_eq]
      exact Ne.symm hb
    rw [List.all_cons, unescapeFrom, if_neg hpercent]
    cases hadmits : admits part b with
    | false =>
      rw [if_pos (by rwa [admits, Bool.not_eq_false'] at hadmits)]
      exact ⟨_, rfl⟩
    | true =>
      rw [if_neg (by rwa [admits, Bool.not_eq_true', ← Bool.not_eq_true] at hadmits)]
      have hrest : Gives (unescapeFrom part fuel (b :: done) t) (t.all (admits part))
          ((b :: done).reverse ++ t) := ih (by simpa using hfuel) ht
      rwa [List.reverse_cons, List.append_assoc] at hrest

/-- A part that is read is read on behind it. -/
theorem unescapeFrom_append {part : UrlPart} {fuel : Nat} {done t value : Text} (hfuel : t.length ≤ fuel)
    (h : unescapeFrom part fuel done t = .ok value) (more : Text) :
    ∃ fuel', more.length ≤ fuel' ∧ unescapeFrom part (fuel + more.length) done (t ++ more) =
      unescapeFrom part fuel' value.reverse more := by
  have hsucc (fuel : Nat) : fuel + 1 + more.length = fuel + more.length + 1 := by omega
  fun_induction unescapeFrom part fuel done t with
  | case1 done t =>
    cases h
    obtain rfl := List.length_eq_zero_iff.1 (Nat.le_zero.1 hfuel)
    exact ⟨0 + more.length, by omega, by rw [List.nil_append, List.reverse_reverse]⟩
  | case2 fuel done =>
    cases h
    exact ⟨fuel + more.length, by omega, by rw [List.nil_append, List.reverse_reverse]⟩
  | case3 => cases h
  | case4 fuel done b rest hpercent hi lo hdigits hrefuses ih =>
    obtain ⟨c, d, rest, rfl⟩ : ∃ c d rest', rest = c :: d :: rest' := by
      match rest with
      | [] => cases hdigits
      | [c] =>
        simp only [List.take_succ_cons, List.take_nil, List.mapM_cons, List.mapM_nil] at hdigits
        cases hvalue : Text.hexValue? c <;> simp [hvalue] at hdigits
      | c :: d :: rest => exact ⟨c, d, rest, rfl⟩
    obtain ⟨fuel', hle, heq⟩ := ih (by simp at hfuel ⊢; omega) h
    refine ⟨fuel', hle, ?_⟩
    rw [← heq, Nat.succ_eq_add_one, hsucc, List.cons_append, unescapeFrom, if_pos hpercent]
    have hsame : (c :: d :: rest ++ more).take 2 = (c :: d :: rest).take 2 := rfl
    rw [hsame, hdigits]
    simp only [hrefuses]
    rfl
  | case5 => cases h
  | case6 => cases h
  | case7 fuel done b rest hpercent hrefuses ih =>
    obtain ⟨fuel', hle, heq⟩ := ih (by simpa using hfuel) h
    refine ⟨fuel', hle, ?_⟩
    rw [← heq, Nat.succ_eq_add_one, hsucc, List.cons_append, unescapeFrom, if_neg hpercent,
      if_neg hrefuses]

/-- Bytes behind a part that is read stand for themselves, unless one of them is not admitted. -/
theorem unescape_append {part : UrlPart} {t value more : Text} (h : unescape part t = .ok value)
    (hmore : ('%' : UInt8) ∉ more) :
    Gives (unescape part (t ++ more)) (more.all (admits part)) (value ++ more) := by
  obtain ⟨fuel, hfuel, heq⟩ := unescapeFrom_append (Nat.le_succ _) h more
  have hlength : (t ++ more).length + 1 = t.length.succ + more.length := by
    rw [List.length_append]
    omega
  have hplain : Gives (unescapeFrom part fuel value.reverse more) (more.all (admits part))
      (value.reverse.reverse ++ more) := unescapeFrom_plain hfuel hmore
  rw [unescape, hlength, heq]
  rwa [List.reverse_reverse] at hplain

/-- In a path and in a fragment every byte is admitted. -/
theorem unescape_append_ok {part : UrlPart} {t value more : Text} (hpart : part = .path ∨ part = .fragment)
    (h : unescape part t = .ok value) (hmore : ('%' : UInt8) ∉ more) :
    unescape part (t ++ more) = .ok (value ++ more) := by
  have hall : more.all (admits part) = true := by
    rw [List.all_eq_true]
    rcases hpart with rfl | rfl <;> exact fun _ _ => rfl
  have happend := unescape_append h hmore
  rwa [hall] at happend

/-! ## The steps of reading -/

theorem splitScheme_eq {t scheme rest : Text} (h : splitScheme t = .ok (scheme, rest))
    (hne : scheme ≠ []) : t = scheme ++ (':' :: rest : Text) ∧
      (∃ b tail, scheme = b :: tail ∧ Text.isAlpha b = true) ∧ ∀ b ∈ scheme, isSchemeByte b = true := by
  have hsplit := List.prefix_iff_eq_append.1 (List.takeWhile_prefix isSchemeByte (l := t))
  simp only [splitScheme] at h
  split at h
  · next b tail c rest' hdrop =>
    split_ifs at h with hcolon hempty halpha
    · cases h
      exact absurd rfl hne
    · cases h
      rw [bne_iff_ne, not_not] at hcolon
      subst hcolon
      rw [hdrop] at hsplit
      refine ⟨hsplit.symm, ⟨b, tail.takeWhile isSchemeByte, ?_, halpha⟩, fun _ => List.mem_takeWhile_imp⟩
      rw [List.takeWhile_cons, if_pos (by simp [isSchemeByte, halpha])]
    · cases h
      exact absurd rfl hne
  · cases h
    exact absurd rfl hne

theorem withQuery_append (u : Url) {front query : Text} (hfront : ('?' : UInt8) ∉ front)
    (hquery : ∀ b ∈ query.head?, b = '?') :
    withQuery u (front ++ query) = ((withQuery u query).1, front) := by
  cases query with
  | nil =>
    rw [List.append_nil]
    simp only [withQuery, Text.cutByte?_of_not_mem hfront]
    rfl
  | cons b query =>
    obtain rfl : b = '?' := hquery b rfl
    have hcut := Text.cutByte?_append (q := query) (List.not_mem_nil (a := ('?' : UInt8)))
    rw [List.nil_append] at hcut
    simp only [withQuery, Text.cutByte?_append hfront, hcut]

theorem withQuery_scheme (u : Url) (t : Text) : (withQuery u t).1.scheme = u.scheme := by
  unfold withQuery
  split <;> rfl

theorem withQuery_host (u : Url) (t : Text) : (withQuery u t).1.host = u.host := by
  unfold withQuery
  split <;> rfl

theorem withPath_ok {u v : Url} {t : Text} (h : withPath u t = .ok v) :
    v.host = u.host ∧ v.scheme = u.scheme := by
  unfold withPath at h
  cases hpath : unescape .path t with
  | error e =>
    rw [hpath] at h
    cases h
  | ok path =>
    rw [hpath] at h
    cases h
    exact ⟨rfl, rfl⟩

/-- An address that is read with a scheme and a host has two slashes behind its scheme. -/
theorem slashes_of_readMain {main scheme front query : Text} {u : Url} (h : readMain main = .ok u)
    (hscheme : u.scheme ≠ []) (hhost : u.host ≠ []) (hsplit : splitScheme main = .ok (scheme, front ++ query))
    (hfront : ('?' : UInt8) ∉ front) (hquery : ∀ b ∈ query.head?, b = '?') :
    scheme ≠ [] ∧ Text.startsWith front "//" = true := by
  unfold readMain at h
  split_ifs at h with hcontrol hstar
  · cases h
    exact absurd rfl hhost
  simp only [hsplit, bind, Except.bind, throw, throwThe, MonadExceptOf.throw,
    withQuery_append _ hfront hquery] at h
  have hqueryHost := withQuery_host { scheme := scheme.toLower } query
  have hqueryScheme := withQuery_scheme { scheme := scheme.toLower } query
  generalize (withQuery { scheme := scheme.toLower } query).1 = v at h hqueryHost hqueryScheme
  split_ifs at h with hopaque hcolon hslashes
  · cases h
    exact absurd hqueryHost hhost
  · rcases hauthority : readAuthority (firstSegment (front.drop 2)) with e | ⟨user?, host⟩
    · rw [hauthority] at h
      cases h
    · rw [hauthority] at h
      have hsame := (withPath_ok h).2.trans hqueryScheme
      refine ⟨?_, (Bool.and_eq_true_iff.1 hslashes).1⟩
      rintro rfl
      exact hscheme hsame
  · exact absurd ((withPath_ok h).1.trans hqueryHost) hhost

/-! ## Addresses with an authority -/

/-- The parts that an address with an authority is spelled with. The query and the fragment have their
marks. -/
structure Parts where
  scheme : Text
  authority : Text
  path : Text := []
  query : Text := []
  fragment : Text := []
  scheme_head : ∃ b rest, scheme = b :: rest ∧ Text.isAlpha b = true
  scheme_bytes : ∀ b ∈ scheme, isSchemeByte b = true
  authority_bytes : ∀ b ∈ authority, b ≠ '/' ∧ b ≠ '?' ∧ b ≠ '#'
  path_head : ∀ b ∈ path.head?, b = '/'
  path_bytes : ∀ b ∈ path, b ≠ '?' ∧ b ≠ '#'
  query_head : ∀ b ∈ query.head?, b = '?'
  query_bytes : ∀ b ∈ query, b ≠ '#'
  fragment_head : ∀ b ∈ fragment.head?, b = '#'

namespace Parts

/-- What stands behind the slashes, up to the fragment. -/
def behind (p : Parts) : Text := p.authority ++ p.path ++ p.query

def main (p : Parts) : Text := p.scheme ++ (':' :: '/' :: '/' :: p.behind : Text)

/-- The address. -/
def text (p : Parts) : Text := p.main ++ p.fragment

variable {p : Parts}

theorem not_mem_scheme (p : Parts) {b : UInt8} (hb : isSchemeByte b = false) : b ∉ p.scheme := by
  intro h
  rw [p.scheme_bytes b h] at hb
  cases hb

theorem hash_not_mem_main (p : Parts) : ('#' : UInt8) ∉ p.main := by
  have hauthority : ('#' : UInt8) ∉ p.authority := fun h => (p.authority_bytes _ h).2.2 rfl
  have hpath : ('#' : UInt8) ∉ p.path := fun h => (p.path_bytes _ h).2 rfl
  have hquery : ('#' : UInt8) ∉ p.query := fun h => p.query_bytes _ h rfl
  simp only [main, behind, List.mem_append, List.mem_cons, not_or]
  exact ⟨p.not_mem_scheme (by decide), by decide, by decide, by decide, ⟨hauthority, hpath⟩, hquery⟩

theorem splitScheme_main (p : Parts) :
    splitScheme p.main = .ok (p.scheme, ('/' :: '/' :: p.behind : Text)) := by
  have hscheme : p.main.takeWhile isSchemeByte = p.scheme := by
    have hcolon : isSchemeByte ':' = false := by decide
    rw [main, List.takeWhile_append_of_pos p.scheme_bytes, List.takeWhile_cons, hcolon]
    simp
  have hrest : p.main.drop p.scheme.length = (':' :: '/' :: '/' :: p.behind : Text) := List.drop_left
  obtain ⟨b, rest, hb, halpha⟩ := p.scheme_head
  have hmain : p.main = b :: (rest ++ (':' :: '/' :: '/' :: p.behind : Text)) := by
    rw [main, hb]
    rfl
  unfold splitScheme
  simp only [hscheme, hrest]
  rw [hmain]
  simp [hb, halpha]

theorem withQuery_behind (p : Parts) (u : Url) :
    withQuery u ('/' :: '/' :: p.behind : Text) =
      ((withQuery u p.query).1, ('/' :: '/' :: (p.authority ++ p.path) : Text)) := by
  have hfront : ('?' : UInt8) ∉ ('/' :: '/' :: (p.authority ++ p.path) : Text) := by
    have hauthority : ('?' : UInt8) ∉ p.authority := fun h => (p.authority_bytes _ h).2.1 rfl
    have hpath : ('?' : UInt8) ∉ p.path := fun h => (p.path_bytes _ h).1 rfl
    simp only [List.mem_append, List.mem_cons, not_or]
    exact ⟨by decide, by decide, hauthority, hpath⟩
  exact withQuery_append u hfront p.query_head

/-- The address that the parts before the fragment spell, if they spell one. -/
def main? (p : Parts) : Except UrlFault Url := do
  let (user?, host) ← readAuthority p.authority
  withPath { (withQuery { scheme := p.scheme.toLower } p.query).1 with user? := user?, host := host } p.path

theorem firstSegment_append (p : Parts) : firstSegment (p.authority ++ p.path) = p.authority := by
  have hauthority : ∀ b ∈ p.authority, (b != ('/' : UInt8)) = true := fun b hb => by
    simpa using (p.authority_bytes b hb).1
  rw [firstSegment, List.takeWhile_append_of_pos hauthority]
  cases hpath : p.path with
  | nil => simp
  | cons b path =>
    obtain rfl : b = '/' := p.path_head b (by rw [hpath]; rfl)
    simp

theorem readMain_main (p : Parts) : readMain p.main =
    if hasControlByte p.main then .error .controlByte else p.main? := by
  have hstar : (p.main == Text.ofString "*") = false := by
    obtain ⟨b, rest, hb, halpha⟩ := p.scheme_head
    rw [beq_eq_false_iff_ne, main, hb]
    intro heq
    obtain ⟨rfl, -⟩ := List.cons.inj heq
    revert halpha
    decide
  have hscheme : p.scheme.isEmpty = false := by
    obtain ⟨b, rest, hb, -⟩ := p.scheme_head
    rw [hb]
    rfl
  have hslash (t : Text) : Text.startsWith ('/' :: '/' :: t : Text) "/" = true := rfl
  have hslashes (t : Text) : Text.startsWith ('/' :: '/' :: t : Text) "//" = true := rfl
  have hpath : ('/' :: '/' :: (p.authority ++ p.path) : Text).drop (2 + p.authority.length) = p.path := by
    rw [Nat.add_comm]
    exact List.drop_left
  unfold readMain
  rw [hstar, p.splitScheme_main]
  simp only [bind, Except.bind, p.withQuery_behind, hslash, hslashes, hscheme, hpath, List.drop_succ_cons,
    List.drop_zero, p.firstSegment_append]
  rfl

theorem read_text (p : Parts) : Url.read p.text =
    match readMain p.main with
    | .error e => .error ⟨p.main, e⟩
    | .ok u =>
      if (p.fragment.drop 1).isEmpty then .ok u
      else match u.withFragment (p.fragment.drop 1) with
        | .ok u => .ok u
        | .error e => .error ⟨p.text, e⟩ := by
  unfold Url.read
  rewrite [text, Text.cutByte?_getD p.hash_not_mem_main p.fragment_head]
  rfl

/-- What the parts have to satisfy for the address to be read, with the host that is read. -/
structure Readable (p : Parts) (host : Text) : Prop where
  control : hasControlByte p.main = false
  authority : ∃ user?, readAuthority p.authority = .ok (user?, host)
  path : ∃ value, unescape .path p.path = .ok value
  fragment : ∃ value, unescape .fragment (p.fragment.drop 1) = .ok value

theorem Readable.read {host : Text} (h : p.Readable host) :
    ∃ u, Url.read p.text = .ok u ∧ u.host = host ∧ u.scheme = p.scheme.toLower := by
  obtain ⟨hcontrol, ⟨user?, hauthority⟩, ⟨path, hpath⟩, fragment, hfragment⟩ := h
  obtain ⟨u, hmain, hhost, hscheme⟩ :
      ∃ u, p.main? = .ok u ∧ u.host = host ∧ u.scheme = p.scheme.toLower := by
    simp only [main?, hauthority, withPath, hpath, bind, Except.bind]
    exact ⟨_, rfl, rfl, withQuery_scheme ..⟩
  rw [read_text, readMain_main, hcontrol, hmain]
  simp only [Bool.false_eq_true, if_false]
  split
  · exact ⟨u, rfl, hhost, hscheme⟩
  · simp only [withFragment, hfragment, bind, Except.bind]
    exact ⟨_, rfl, hhost, hscheme⟩

theorem readable_of_read {u : Url} (h : Url.read p.text = .ok u) :
    p.Readable u.host ∧ u.scheme = p.scheme.toLower := by
  rw [read_text, readMain_main] at h
  cases hcontrol : hasControlByte p.main with
  | true =>
    rw [hcontrol] at h
    cases h
  | false =>
    rcases hauthority : readAuthority p.authority with e | ⟨user?, host⟩
    · simp only [hcontrol, main?, hauthority] at h
      cases h
    cases hpath : unescape .path p.path with
    | error e =>
      simp only [hcontrol, main?, hauthority, withPath, hpath, bind, Except.bind] at h
      cases h
    | ok path =>
      simp only [hcontrol, main?, hauthority, withPath, hpath, bind, Except.bind] at h
      cases hfragment : unescape .fragment (p.fragment.drop 1) with
      | error e =>
        have hne : ¬ (p.fragment.drop 1).isEmpty = true := by
          intro hempty
          rw [List.isEmpty_iff.1 hempty] at hfragment
          cases hfragment
        rw [if_neg Bool.false_ne_true] at h
        simp only [pure, Except.pure, if_neg hne, withFragment, hfragment, bind, Except.bind] at h
        cases h
      | ok fragment =>
        have hu : u.host = host ∧ u.scheme = p.scheme.toLower := by
          rw [if_neg Bool.false_ne_true] at h
          simp only [pure, Except.pure, withFragment, hfragment, bind, Except.bind] at h
          split at h <;> cases h <;> exact ⟨rfl, withQuery_scheme ..⟩
        exact ⟨⟨hcontrol, ⟨user?, hu.1 ▸ hauthority⟩, ⟨path, hpath⟩, fragment, hfragment⟩, hu.2⟩

/-! ### Reading finds the parts -/

/-- What is read with a scheme and a host, up to the fragment, is spelled in parts. -/
theorem exists_parts_main {main : Text} {u : Url} (h : readMain main = .ok u) (hscheme : u.scheme ≠ [])
    (hhost : u.host ≠ []) (hhash : ('#' : UInt8) ∉ main) :
    ∃ p : Parts, p.main = main ∧ p.fragment = [] := by
  rcases hsplit : splitScheme main with e | ⟨scheme, rest⟩
  · unfold readMain at h
    split_ifs at h
    · cases h
      exact absurd rfl hhost
    · rw [hsplit] at h
      cases h
  obtain ⟨front, query, rfl, hfront, hquery⟩ := Text.exists_cut rest '?'
  obtain ⟨hne, hslashes⟩ := slashes_of_readMain h hscheme hhost hsplit hfront hquery
  obtain ⟨hmain, hhead, hbytes⟩ := splitScheme_eq hsplit hne
  obtain ⟨behind, hbehind⟩ := Option.isSome_iff_exists.1 hslashes
  obtain rfl := Text.eq_append_of_dropFront? hbehind
  obtain ⟨authority, path, rfl, hauthority, hpath⟩ := Text.exists_cut behind '/'
  obtain rfl : main = scheme ++ (':' :: '/' :: '/' :: (authority ++ path ++ query) : Text) := hmain
  simp only [List.mem_append, List.mem_cons, not_or] at hhash hfront
  have hne_of_not_mem {b c : UInt8} {t : Text} (ht : c ∉ t) (hb : b ∈ t) : b ≠ c :=
    fun h => ht (h ▸ hb)
  exact ⟨{
    scheme, authority, path, query
    scheme_head := hhead
    scheme_bytes := hbytes
    authority_bytes := fun b hb => ⟨hne_of_not_mem hauthority hb, hne_of_not_mem hfront.2.1 hb,
      hne_of_not_mem hhash.2.2.2.2.1.1 hb⟩
    path_head := hpath
    path_bytes := fun b hb => ⟨hne_of_not_mem hfront.2.2 hb, hne_of_not_mem hhash.2.2.2.2.1.2 hb⟩
    query_head := hquery
    query_bytes := fun b hb => hne_of_not_mem hhash.2.2.2.2.2 hb
    fragment_head := fun b hb => by cases hb }, rfl, rfl⟩

/-- An address with a scheme and a host is spelled in parts. -/
theorem exists_parts {t : Text} {u : Url} (h : Url.read t = .ok u) (hscheme : u.scheme ≠ [])
    (hhost : u.host ≠ []) : ∃ p : Parts, p.text = t := by
  obtain ⟨main, fragment, rfl, hhash, hfragment⟩ := Text.exists_cut t '#'
  obtain ⟨v, hmain, hsame⟩ : ∃ v, readMain main = .ok v ∧ v.scheme = u.scheme ∧ v.host = u.host := by
    unfold Url.read at h
    rw [Text.cutByte?_getD hhash hfragment] at h
    cases hmain : readMain main with
    | error e =>
      simp only [hmain] at h
      cases h
    | ok v =>
      refine ⟨v, rfl, ?_⟩
      simp only [hmain, withFragment] at h
      split_ifs at h
      · cases h
        exact ⟨rfl, rfl⟩
      · cases hvalue : unescape .fragment (fragment.drop 1) with
        | error e =>
          rw [hvalue] at h
          cases h
        | ok value =>
          rw [hvalue] at h
          cases h
          exact ⟨rfl, rfl⟩
  obtain ⟨p, rfl, hp⟩ := exists_parts_main hmain (hsame.1 ▸ hscheme) (hsame.2 ▸ hhost) hhash
  exact ⟨{ p with fragment := fragment, fragment_head := hfragment }, rfl⟩

end Parts

end Url

end LiteralAudit
