import LiteralAudit.Proofs.Notify.Isolation
import LiteralAudit.Proofs.Url.Parts

/-!
# White space around endpoints

An endpoint is checked without the white space around it, but it is read and shown as it stands. In front
of an address white space is never taken (`Url.exists_error_of_blank`). Behind it, it goes on with the part
that the address ends in, and it depends on that part what is taken (`Url.Parts.readsOn`): a fragment takes
everything, a path and a query take what is no control byte, the name of a host takes what is not ASCII, and
a port or a bracket takes nothing.

`Notifier.accepted_delivered_iff`: an endpoint that is accepted is shown as an address, and delivered to,
exactly when the white space around it is taken (`Endpoint.toleratesBlanks`).
-/

namespace LiteralAudit

namespace Url

/-! ## Hosts -/

/-- The part in which an address ends. -/
inductive LastPart where
  | fragment
  /-- The path or the query. -/
  | path
  /-- What stands behind a colon or a bracket of the host. -/
  | port
  | name
  deriving Repr, DecidableEq

/-- Whether a byte of white space goes on with the last part of an address. -/
def LastPart.takes : LastPart → UInt8 → Bool
  | fragment, _ => true
  | path, b => !(b < 0x20 || b == 0x7F)
  | port, _ => false
  | name, b => 0x80 ≤ b

/-- The host of an authority, as it is spelled. -/
def hostOf (authority : Text) : Text :=
  match authority.lastIndexOfByte? '@' with
  | none => authority
  | some i => authority.drop (i + 1)

/-- The part in which a host ends. -/
def hostEnd (host : Text) : LastPart :=
  if host.contains ':' || host.contains '[' then .port else .name

theorem takes_path_of_host {host : Text} {b : UInt8} (h : (hostEnd host).takes b = true) :
    LastPart.path.takes b = true := by
  unfold hostEnd at h
  split at h
  · cases h
  · simp only [LastPart.takes, decide_eq_true_eq, Bool.not_eq_true', Bool.or_eq_false_iff,
      decide_eq_false_iff_not, beq_eq_false_iff_ne] at h ⊢
    refine ⟨fun hlt => ?_, ?_⟩
    · exact absurd (UInt8.lt_of_le_of_lt h hlt) (by decide)
    · rintro rfl
      exact absurd h (by decide)

theorem hostEnd_eq (host : Text) : hostEnd host =
    if (host.lastIndexOfByte? ':').isSome || (host.lastIndexOfByte? '[').isSome then .port else .name := by
  rw [Text.lastIndexOfByte?_isSome, Text.lastIndexOfByte?_isSome]
  rfl

variable {t back : Text}

theorem not_blank_of_scheme {b : UInt8} (h : isSchemeByte b = true) : Text.isBlankByte b = false := by
  have hall : ∀ n < 256, isSchemeByte (UInt8.ofNat n) = true →
      Text.isBlankByte (UInt8.ofNat n) = false := by decide +kernel
  have hb := hall b.toNat b.toNat_lt
  rw [UInt8.ofNat_toNat] at hb
  exact hb h

/-- Where a host ends in a name, what it admits of white space is what is not ASCII. -/
theorem all_admits_host (h : Text.IsBlank back) :
    back.all (admits .host) = back.all LastPart.name.takes := by
  have hall : ∀ n < 256, Text.isBlankByte (UInt8.ofNat n) = true →
      admits .host (UInt8.ofNat n) = LastPart.name.takes (UInt8.ofNat n) := by decide +kernel
  rw [Bool.eq_iff_iff, List.all_eq_true, List.all_eq_true]
  refine forall₂_congr fun b hb => ?_
  have hsame := hall b.toNat b.toNat_lt
  rw [UInt8.ofNat_toNat] at hsame
  rw [hsame (h b hb)]

theorem isPort_append (t : Text) (hblank : Text.IsBlank back) (hne : back ≠ []) :
    isPort (t ++ back) = false := by
  obtain ⟨b, back, rfl⟩ := List.exists_cons_of_ne_nil hne
  have hb := hblank b List.mem_cons_self
  cases t with
  | nil =>
    have hcolon : b ≠ ':' := by
      rintro rfl
      revert hb
      decide
    simp [isPort, hcolon]
  | cons c t =>
    have hdigit : Text.isDigit b = false := by
      rw [Bool.eq_false_iff]
      intro hdigit
      have hscheme : isSchemeByte b = true := by simp [isSchemeByte, hdigit]
      rw [not_blank_of_scheme hscheme] at hb
      cases hb
    simp [isPort, hdigit]

/-- White space behind a host spoils a port and an address in brackets. A name is spoilt by what is ASCII,
and takes the rest. -/
theorem readHost_append {host : Text} (h : readHost t = .ok host) (hblank : Text.IsBlank back) :
    Gives (readHost (t ++ back)) (back.all (hostEnd t).takes) (host ++ back) := by
  by_cases hne : back = []
  · subst hne
    rw [List.append_nil, List.append_nil]
    exact h
  -- A port is looked for behind the last colon or bracket, which stands where it stood.
  have hport {b : UInt8} {i : Nat} (hi : t.lastIndexOfByte? b = some i) (k : Nat) (hk : k ≤ i + 1) :
      isPort ((t ++ back).drop k) = false := by
    have hle := Text.succ_lastIndexOfByte?_le hi
    rw [List.drop_append_of_le_length (by omega)]
    exact isPort_append _ hblank hne
  have hspoilt (hend : hostEnd t = .port) : back.all (hostEnd t).takes = false := by
    obtain ⟨b, back, rfl⟩ := List.exists_cons_of_ne_nil hne
    rw [hend]
    rfl
  have hopen := Text.lastIndexOfByte?_append_of_not_mem t (hblank.not_mem (b := '[') (by decide))
  have hclose := Text.lastIndexOfByte?_append_of_not_mem t (hblank.not_mem (b := ']') (by decide))
  have hcolon := Text.lastIndexOfByte?_append_of_not_mem t (hblank.not_mem (b := ':') (by decide))
  unfold readHost at h ⊢
  rw [hopen, hclose, hcolon]
  cases hopen : t.lastIndexOfByte? '[' with
  | some i =>
    have hend : hostEnd t = .port := by simp [hostEnd_eq, hopen]
    rw [hspoilt hend]
    rw [hopen] at h
    cases i with
    | succ i => cases h
    | zero =>
      cases hclose : t.lastIndexOfByte? ']' with
      | none =>
        rw [hclose] at h
        cases h
      | some close =>
        refine ⟨.port ((t ++ back).drop (close + 1)), ?_⟩
        simp only [readBracketed, hport hclose _ le_rfl]
        rfl
  | none =>
    rw [hopen] at h
    cases hcolon : t.lastIndexOfByte? ':' with
    | some i =>
      have hend : hostEnd t = .port := by simp [hostEnd_eq, hcolon]
      rw [hspoilt hend]
      refine ⟨.port ((t ++ back).drop i), ?_⟩
      simp only [hport hcolon i (by omega)]
      rfl
    | none =>
      have hend : hostEnd t = .name := by simp [hostEnd_eq, hopen, hcolon]
      rw [hcolon] at h
      rw [hend, ← all_admits_host hblank]
      exact unescape_append h (hblank.not_mem (by decide))

/-- White space behind an authority comes to stand behind the host. -/
theorem readAuthority_append {user? : Option UserInfo} {host : Text}
    (h : readAuthority t = .ok (user?, host)) (hblank : Text.IsBlank back) :
    Gives (readAuthority (t ++ back)) (back.all (hostEnd (hostOf t)).takes) (user?, host ++ back) := by
  have hat := Text.lastIndexOfByte?_append_of_not_mem t (hblank.not_mem (b := '@') (by decide))
  unfold readAuthority hostOf at *
  rw [hat]
  cases hat : t.lastIndexOfByte? '@' with
  | none =>
    simp only [hat] at h ⊢
    cases hhost : readHost t with
    | error e =>
      rw [hhost] at h
      cases h
    | ok host =>
      rw [hhost] at h
      cases h
      exact (readHost_append hhost hblank).bind rfl
  | some i =>
    have hle := Text.succ_lastIndexOfByte?_le hat
    simp only [hat] at h ⊢
    rw [List.drop_append_of_le_length hle, List.take_append_of_le_length (by omega)]
    cases hhost : readHost (t.drop (i + 1)) with
    | error e =>
      rw [hhost] at h
      cases h
    | ok host =>
      rw [hhost] at h
      cases huser : readUser (t.take i) with
      | error e =>
        rw [huser] at h
        cases h
      | ok user =>
        rw [huser] at h
        cases h
        exact (readHost_append hhost hblank).bind rfl

namespace Parts

variable {p q : Parts} {host back : Text}

/-! ## White space behind an address -/

/-- The part in which an address ends. -/
def lastPart (p : Parts) : LastPart :=
  if p.fragment ≠ [] then .fragment
  else if p.path ≠ [] ∨ p.query ≠ [] then .path
  else hostEnd (hostOf p.authority)

/-- How an address is read with something behind it: as an address with the same scheme, whose host starts
with the same host, when the last part takes what stands there, and else not at all. -/
def ReadsOn (p : Parts) (host back : Text) : Prop :=
  if back.all p.lastPart.takes then
    ∃ u, Url.read (p.text ++ back) = .ok u ∧ host <+: u.host ∧ u.scheme = p.scheme.toLower
  else ∃ e, Url.read (p.text ++ back) = .error e

/-- It is enough to look at the parts that the longer address is spelled with. -/
theorem readsOn_of_readable (htext : q.text = p.text ++ back) (hscheme : q.scheme = p.scheme) {host' : Text}
    (hhost : host <+: host') (hreadable : back.all p.lastPart.takes = true → q.Readable host')
    (htakes : ∀ h, q.Readable h → back.all p.lastPart.takes = true) : p.ReadsOn host back := by
  unfold ReadsOn
  rw [← htext]
  split
  · next htakes =>
    obtain ⟨u, hread, rfl, hu⟩ := (hreadable htakes).read
    exact ⟨u, hread, hhost, hscheme ▸ hu⟩
  · next hno =>
    cases hread : Url.read q.text with
    | error e => exact ⟨e, rfl⟩
    | ok u => exact absurd (htakes _ (readable_of_read hread).1) hno

theorem readsOn_fragment (hp : p.Readable host) (hblank : Text.IsBlank back) (hne : p.fragment ≠ []) :
    p.ReadsOn host back := by
  obtain ⟨q, hmain, hparts, hfragment⟩ : ∃ q : Parts, q.main = p.main ∧
      (q.scheme = p.scheme ∧ q.authority = p.authority ∧ q.path = p.path) ∧
        q.fragment = p.fragment ++ back :=
    ⟨{ p with
      fragment := p.fragment ++ back
      fragment_head := by
        rw [List.head?_append_of_ne_nil _ hne]
        exact p.fragment_head }, rfl, ⟨rfl, rfl, rfl⟩, rfl⟩
  have hlast : p.lastPart = .fragment := if_pos hne
  have htakes : back.all p.lastPart.takes = true := by
    rw [hlast]
    exact List.all_eq_true.2 fun _ _ => rfl
  refine readsOn_of_readable (q := q) ?_ hparts.1 (List.prefix_refl host) (fun _ => ?_) fun _ _ => htakes
  · rw [text, text, hmain, hfragment, List.append_assoc]
  · obtain ⟨value, hvalue⟩ := hp.fragment
    have happend := unescape_append_ok (.inr rfl) hvalue (hblank.not_mem (b := '%') (by decide))
    rw [← List.drop_append_of_le_length (List.length_pos_iff.2 hne)] at happend
    exact {
      control := hmain ▸ hp.control
      authority := hparts.2.1 ▸ hp.authority
      path := hparts.2.2 ▸ hp.path
      fragment := ⟨_, hfragment ▸ happend⟩ }

/-- Without a fragment, what stands behind an address is looked at with the address. -/
theorem hasControlByte_append (hp : p.Readable host) (back : Text) :
    hasControlByte (p.main ++ back) = !back.all LastPart.path.takes := by
  have hmain : hasControlByte (p.main ++ back) = (hasControlByte p.main || hasControlByte back) :=
    List.any_append
  have hback : back.all LastPart.path.takes = !hasControlByte back := List.not_any_eq_all_not.symm
  rw [hmain, hp.control, hback, Bool.false_or, Bool.not_not]

theorem readsOn_path (hp : p.Readable host) (hblank : Text.IsBlank back) (hfragment : p.fragment = [])
    (hne : p.path ≠ [] ∨ p.query ≠ []) : p.ReadsOn host back := by
  obtain ⟨value, hvalue⟩ := hp.path
  have hbytes {c : UInt8} (hc : Text.isBlankByte c = false) {b : UInt8} (hb : b ∈ back) : b ≠ c :=
    fun h => hblank.not_mem hc (h ▸ hb)
  obtain ⟨q, hmain, hparts, path, hpath⟩ : ∃ q : Parts, q.main = p.main ++ back ∧
      (q.scheme = p.scheme ∧ q.authority = p.authority ∧ q.fragment = p.fragment) ∧
        ∃ path, unescape .path q.path = .ok path := by
    by_cases hquery : p.query = []
    · refine ⟨{ p with
        path := p.path ++ back
        path_head := ?_
        path_bytes := ?_ }, ?_, ⟨rfl, rfl, rfl⟩, ?_⟩
      · rw [List.head?_append_of_ne_nil _ (hne.resolve_right (not_not.2 hquery))]
        exact p.path_head
      · exact List.forall_mem_append.2 ⟨p.path_bytes, fun b hb =>
          ⟨hbytes (by decide) hb, hbytes (by decide) hb⟩⟩
      · simp [main, behind, hquery]
      · exact ⟨_, unescape_append_ok (.inl rfl) hvalue (hblank.not_mem (by decide))⟩
    · refine ⟨{ p with
        query := p.query ++ back
        query_head := ?_
        query_bytes := ?_ }, ?_, ⟨rfl, rfl, rfl⟩, value, hvalue⟩
      · rw [List.head?_append_of_ne_nil _ hquery]
        exact p.query_head
      · exact List.forall_mem_append.2 ⟨p.query_bytes, fun b hb => hbytes (by decide) hb⟩
      · simp [main, behind]
  have hlast : p.lastPart = .path := by rw [lastPart, if_neg (not_not.2 hfragment), if_pos hne]
  have hcontrol := hasControlByte_append hp back
  rw [← hmain] at hcontrol
  refine readsOn_of_readable (q := q) ?_ hparts.1 (List.prefix_refl host) (fun htakes => ?_) fun h hq => ?_
  · rw [text, text, hmain, hparts.2.2, hfragment, List.append_nil, List.append_nil]
  · rw [hlast] at htakes
    rw [htakes] at hcontrol
    exact {
      control := hcontrol
      authority := hparts.2.1 ▸ hp.authority
      path := ⟨path, hpath⟩
      fragment := hparts.2.2 ▸ hp.fragment }
  · rw [hq.control, eq_comm, Bool.not_eq_false'] at hcontrol
    rw [hlast, hcontrol]

theorem readsOn_host (hp : p.Readable host) (hblank : Text.IsBlank back) (hfragment : p.fragment = [])
    (hpath : p.path = []) (hquery : p.query = []) : p.ReadsOn host back := by
  obtain ⟨user?, hauthority⟩ := hp.authority
  have hgives := readAuthority_append hauthority hblank
  have hbytes {c : UInt8} (hc : Text.isBlankByte c = false) {b : UInt8} (hb : b ∈ back) : b ≠ c :=
    fun h => hblank.not_mem hc (h ▸ hb)
  obtain ⟨q, hmain, hparts, hqauthority⟩ : ∃ q : Parts, q.main = p.main ++ back ∧
      (q.scheme = p.scheme ∧ q.path = p.path ∧ q.fragment = p.fragment) ∧
        q.authority = p.authority ++ back := by
    refine ⟨{ p with
      authority := p.authority ++ back
      authority_bytes := List.forall_mem_append.2 ⟨p.authority_bytes, fun b hb =>
        ⟨hbytes (by decide) hb, hbytes (by decide) hb, hbytes (by decide) hb⟩⟩ }, ?_, ⟨rfl, rfl, rfl⟩, rfl⟩
    simp [main, behind, hpath, hquery]
  have hlast : p.lastPart = hostEnd (hostOf p.authority) := by
    rw [lastPart, if_neg (not_not.2 hfragment), if_neg (by simp [hpath, hquery])]
  rw [← hqauthority, ← hlast] at hgives
  refine readsOn_of_readable (q := q) ?_ hparts.1 (List.prefix_append host back) (fun htakes => ?_)
    fun h hq => ?_
  · rw [text, text, hmain, hparts.2.2, hfragment, List.append_nil, List.append_nil]
  · have hpathTakes : back.all LastPart.path.takes = true := by
      rw [List.all_eq_true] at htakes ⊢
      exact fun b hb => takes_path_of_host (hlast ▸ htakes b hb)
    have hcontrol := hasControlByte_append hp back
    rw [← hmain, hpathTakes] at hcontrol
    rw [htakes] at hgives
    exact {
      control := hcontrol
      authority := ⟨user?, hgives⟩
      path := hparts.2.1 ▸ hp.path
      fragment := hparts.2.2 ▸ hp.fragment }
  · by_contra hno
    rw [Bool.not_eq_true] at hno
    rw [hno] at hgives
    obtain ⟨e, he⟩ := hgives
    obtain ⟨user?, huser⟩ := hq.authority
    rw [he] at huser
    cases huser

/-- White space behind an address comes to stand in its last part. -/
theorem readsOn (hp : p.Readable host) (hblank : Text.IsBlank back) : p.ReadsOn host back := by
  by_cases hfragment : p.fragment = []
  · by_cases hne : p.path ≠ [] ∨ p.query ≠ []
    · exact readsOn_path hp hblank hfragment hne
    · simp only [not_or, not_not] at hne
      exact readsOn_host hp hblank hfragment hne.1 hne.2
  · exact readsOn_fragment hp hblank hfragment

end Parts

/-- The part in which an address ends that has a scheme and an authority. -/
def lastPart (t : Text) : LastPart :=
  let behind := (t.dropWhile fun (b : UInt8) => b != '/').drop 2
  if t.contains '#' then .fragment
  else if behind.contains '/' || behind.contains '?' then .path
  else hostEnd (hostOf behind)

/-- The last part of an address can be told without reading it. -/
theorem Parts.lastPart_text (p : Parts) : Url.lastPart p.text = p.lastPart := by
  have hbehind : (p.text.dropWhile fun (b : UInt8) => b != '/').drop 2 = p.behind ++ p.fragment := by
    have hscheme : ∀ b ∈ p.scheme, (b != ('/' : UInt8)) = true := fun b hb => by
      rw [bne_iff_ne]
      rintro rfl
      exact p.not_mem_scheme (by decide) hb
    rw [text, main, List.append_assoc, List.dropWhile_append_of_pos hscheme]
    rfl
  unfold Url.lastPart Parts.lastPart
  rw [hbehind]
  cases hfragment : p.fragment with
  | cons b fragment =>
    obtain rfl : b = '#' := p.fragment_head b (by rw [hfragment]; rfl)
    have hhash : p.text.contains '#' = true := by simp [text, hfragment]
    rw [if_pos hhash]
    exact (if_pos (List.cons_ne_nil _ _)).symm
  | nil =>
    have hhash : ¬ p.text.contains '#' = true := by simpa [text, hfragment] using p.hash_not_mem_main
    rw [if_neg hhash, if_neg (not_not.2 rfl), List.append_nil]
    by_cases hne : p.path ≠ [] ∨ p.query ≠ []
    · have hmark : (p.behind.contains '/' || p.behind.contains '?') = true := by
        simp only [behind, Bool.or_eq_true, List.contains_iff_mem, List.mem_append]
        rcases hne with hpath | hquery
        · obtain ⟨b, path, hpath⟩ := List.exists_cons_of_ne_nil hpath
          obtain rfl : b = '/' := p.path_head b (by rw [hpath]; rfl)
          exact .inl (.inl (.inr (hpath ▸ List.mem_cons_self)))
        · obtain ⟨b, query, hquery⟩ := List.exists_cons_of_ne_nil hquery
          obtain rfl : b = '?' := p.query_head b (by rw [hquery]; rfl)
          exact .inr (.inr (hquery ▸ List.mem_cons_self))
      rw [if_pos hmark, if_pos hne]
    · obtain ⟨hpath, hquery⟩ : p.path = [] ∧ p.query = [] := by simpa using hne
      have hauthority : p.behind = p.authority := by simp [behind, hpath, hquery]
      have hmark : ¬ (p.behind.contains '/' || p.behind.contains '?') = true := by
        rw [hauthority, Bool.or_eq_true, List.contains_iff_mem, List.contains_iff_mem]
        rintro (h | h)
        · exact (p.authority_bytes _ h).1 rfl
        · exact (p.authority_bytes _ h).2.1 rfl
      rw [if_neg hmark, if_neg hne, hauthority]

/-! ## White space in front of an address -/

/-- The scheme is not found where white space stands in front of it. -/
theorem splitScheme_blank {b : UInt8} (hb : Text.isBlankByte b = true) (t : Text) :
    splitScheme (b :: t) = .ok ([], b :: t) := by
  have hscheme : isSchemeByte b = false := by
    rw [Bool.eq_false_iff]
    intro hscheme
    rw [not_blank_of_scheme hscheme] at hb
    cases hb
  have hcolon : b ≠ ':' := by
    rintro rfl
    revert hb
    decide
  have hnone : (b :: t).takeWhile isSchemeByte = [] := List.takeWhile_cons_of_neg (by simp [hscheme])
  simp only [splitScheme, hnone]
  exact if_pos (bne_iff_ne.2 hcolon)

/-- With white space in front there is no scheme, and its colon is one of the first segment of a path. -/
theorem exists_error_of_blank {front scheme : Text} (hblank : Text.IsBlank front) (hne : front ≠ [])
    (hscheme : ∀ b ∈ scheme, isSchemeByte b = true) (rest : Text) :
    ∃ e, Url.read (front ++ (scheme ++ (':' :: rest : Text))) = .error e := by
  have hlead {c : UInt8} (hc : Text.isBlankByte c = false) (hc' : isSchemeByte c = false) (hcolon : c ≠ ':') :
      c ∉ front ++ (scheme ++ [(':' : UInt8)]) := by
    simp only [List.mem_append, List.mem_singleton, not_or]
    refine ⟨hblank.not_mem hc, fun h => ?_, hcolon⟩
    rw [hscheme c h] at hc'
    cases hc'
  set lead : Text := front ++ (scheme ++ [(':' : UInt8)]) with hleadEq
  have htext : front ++ (scheme ++ (':' :: rest : Text)) = lead ++ rest := by simp [lead]
  obtain ⟨behind, fragment, hrest, hhash, hfragment⟩ := Text.exists_cut rest '#'
  obtain ⟨path, query, hbehind, hmark, hquery⟩ := Text.exists_cut behind '?'
  have hhash' : ('#' : UInt8) ∉ lead ++ behind :=
    List.not_mem_append (hlead (by decide) (by decide) (by decide)) hhash
  have hmark' : ('?' : UInt8) ∉ lead ++ path :=
    List.not_mem_append (hlead (by decide) (by decide) (by decide)) hmark
  have hmain : ∃ e, readMain (lead ++ behind) = .error e := by
    obtain ⟨b, tail, rfl⟩ := List.exists_cons_of_ne_nil hne
    have hb := hblank b List.mem_cons_self
    have hstar : ¬ (lead ++ behind == Text.ofString "*") = true := by
      rw [beq_iff_eq]
      intro heq
      obtain ⟨rfl, -⟩ := List.cons.inj heq
      revert hb
      decide
    have hslash : Text.startsWith (lead ++ path) "/" = false := by
      have hne : (47 == b) = false := by
        rw [beq_eq_false_iff_ne]
        rintro rfl
        revert hb
        decide
      show Option.isSome (if (47 == b) = true then _ else _) = false
      rw [hne]
      rfl
    have hcolon : (firstSegment (lead ++ path)).contains ':' = true := by
      have hnoSlash : ∀ c ∈ lead, (c != ('/' : UInt8)) = true := fun c hc => by
        rw [bne_iff_ne]
        rintro rfl
        exact hlead (by decide) (by decide) (by decide) hc
      rw [firstSegment, List.takeWhile_append_of_pos hnoSlash, List.contains_iff_mem]
      simp [lead]
    unfold readMain
    by_cases hcontrol : hasControlByte (lead ++ behind) = true
    · rw [if_pos hcontrol]
      exact ⟨_, rfl⟩
    have hsplit : splitScheme (lead ++ behind) = .ok ([], (lead ++ path) ++ query) := by
      rw [List.append_assoc lead, ← hbehind]
      exact splitScheme_blank hb _
    rw [if_neg hcontrol, if_neg hstar, hsplit]
    simp only [bind, Except.bind, withQuery_append _ hmark' hquery, hslash, hcolon]
    exact ⟨_, rfl⟩
  obtain ⟨e, he⟩ := hmain
  refine ⟨⟨lead ++ behind, e⟩, ?_⟩
  rw [htext, hrest, ← List.append_assoc]
  unfold Url.read
  rw [Text.cutByte?_getD hhash' hfragment]
  simp only [he]

end Url

/-! ## Endpoints -/

namespace Endpoint

/-- Whether an address that is accepted without the white space around it is still an address with it: there
is none in front, and what is behind goes on with the part in which the address ends. -/
def toleratesBlanks (raw : Text) : Bool :=
  raw.trimSpaceStart == raw &&
    (raw.drop raw.trimSpace.length).all (Url.lastPart raw.trimSpace).takes

theorem read_of_fault?_eq_none {raw : Text} (h : fault? raw = none) :
    ∃ u, Url.read raw.trimSpace = .ok u ∧ (u.scheme = "http" ∨ u.scheme = "https") ∧ u.host ≠ [] := by
  simp only [fault?] at h
  split_ifs at h
  cases hread : Url.read raw.trimSpace with
  | error e =>
    rw [hread] at h
    cases h
  | ok u =>
    simp only [hread] at h
    split_ifs at h with hscheme hhost
    refine ⟨u, rfl, ?_, by simpa using hhost⟩
    simp only [Bool.and_eq_true, bne_iff_ne, not_and_or, not_not] at hscheme
    exact hscheme

/-- How an address is read that was accepted without the white space around it. -/
theorem read_accepted {raw : Text} (h : fault? raw = none) :
    if toleratesBlanks raw then
      ∃ u, Url.read raw = .ok u ∧ (u.scheme = "http" ∨ u.scheme = "https") ∧ u.host ≠ []
    else ∃ e, Url.read raw = .error e := by
  obtain ⟨u, hread, hscheme, hhost⟩ := read_of_fault?_eq_none h
  have hschemeNe : u.scheme ≠ [] := by
    rcases hscheme with hu | hu <;> rw [hu] <;> decide
  obtain ⟨p, hp⟩ := Url.Parts.exists_parts hread hschemeNe hhost
  obtain ⟨front, back, hraw, hfront, hback, hstart⟩ := raw.exists_blanks
  rw [← hp] at hread hraw
  obtain ⟨hreadable, hsame⟩ := Url.Parts.readable_of_read hread
  unfold toleratesBlanks
  rw [← hp, p.lastPart_text]
  by_cases hempty : front = []
  · have htail : raw.drop p.text.length = back := by
      rw [hraw, hempty, List.nil_append, List.drop_left]
    have hraw : raw = p.text ++ back := by rw [hraw, hempty, List.nil_append]
    have hstartEq : (raw.trimSpaceStart == raw) = true := beq_iff_eq.2 (hstart.1 hempty)
    have hon := Url.Parts.readsOn hreadable hback
    rw [hstartEq, Bool.true_and, htail, hraw]
    unfold Url.Parts.ReadsOn at hon
    by_cases htakes : back.all p.lastPart.takes = true
    · rw [if_pos htakes] at hon ⊢
      obtain ⟨v, hv, hprefix, hvscheme⟩ := hon
      rw [hsame, ← hvscheme] at hscheme
      exact ⟨v, hv, hscheme, fun hnil => hhost (List.prefix_nil.1 (hnil ▸ hprefix))⟩
    · rwa [if_neg htakes] at hon ⊢
  · have hno : (raw.trimSpaceStart == raw) = false := by
      rw [beq_eq_false_iff_ne]
      exact mt hstart.2 hempty
    have htext : p.text ++ back = p.scheme ++ (':' :: '/' :: '/' :: (p.behind ++ p.fragment ++ back) : Text) := by
      simp [Url.Parts.text, Url.Parts.main]
    rw [hno, Bool.false_and, hraw, htext]
    exact Url.exists_error_of_blank hfront hempty p.scheme_bytes _

/-- An endpoint that is accepted is shown as an address exactly when it can be read as it stands. -/
theorem redacted_ne_invalid_iff {raw : Text} (h : fault? raw = none) :
    redacted raw ≠ "<invalid>" ↔ toleratesBlanks raw = true := by
  have hread := read_accepted h
  cases htolerates : toleratesBlanks raw with
  | false =>
    rw [htolerates] at hread
    obtain ⟨e, he⟩ := hread
    simp [redacted_of_unreadable he]
  | true =>
    rw [htolerates] at hread
    obtain ⟨u, hu, hscheme, hhost⟩ := hread
    rw [redacted_of_read hu, if_neg (by simpa using hhost)]
    refine iff_of_true (fun heq => ?_) rfl
    have hhead : some (104 : UInt8) = some 60 := by
      rcases hscheme with hs | hs <;> rw [hs] at heq <;> exact congrArg List.head? heq
    revert hhead
    decide

/-- Without white space around it an endpoint that is accepted is read as it was checked. -/
theorem toleratesBlanks_of_trimSpace_eq {raw : Text} (h : raw.trimSpace = raw) :
    toleratesBlanks raw = true := by
  obtain ⟨front, back, hraw, -, -, hstart⟩ := raw.exists_blanks
  have hlength := congrArg List.length hraw
  rw [h, List.length_append, List.length_append] at hlength
  have hfront : front = [] := List.length_eq_zero_iff.1 (by omega)
  rw [toleratesBlanks, h, hstart.1 hfront, List.drop_length]
  simp

end Endpoint

namespace Notifier

/-- What a notifier with an accepted endpoint comes to when every request is answered with success. -/
theorem deliver_accepted {n : Notifier} {carry : Transport} {p : Payload}
    (h : Endpoint.fault? n.endpoint = none) (hcarry : ∀ r, ∃ body, carry r = .answer 200 body) :
    (n.deliver carry p).delivered = (Endpoint.toleratesBlanks n.endpoint && (n.body? p).isSome) := by
  have hread := Endpoint.read_accepted h
  rw [Bool.eq_iff_iff, deliver_delivered_iff, Bool.and_eq_true]
  cases hbody : n.body? p with
  | none => simp [request_of_body_none hbody]
  | some body =>
    cases htolerates : Endpoint.toleratesBlanks n.endpoint with
    | false =>
      rw [htolerates] at hread
      obtain ⟨e, he⟩ := hread
      simp [request_of_unreadable hbody he]
    | true =>
      rw [htolerates] at hread
      obtain ⟨u, hu, -, -⟩ := hread
      obtain ⟨answer, hanswer⟩ := hcarry ⟨u.dropEmptyPort, body⟩
      exact iff_of_true ⟨_, 200, answer, request_of_read hbody hu, hanswer, by decide, by decide⟩ ⟨rfl, rfl⟩

/-- Of the endpoints that are accepted, those are shown as addresses that tolerate the white space around
them, and those are delivered to when every request is answered with success, provided that the payload has
a body. -/
theorem accepted_delivered_iff (webhooks slack : List Text) :
    (∀ n ∈ ofEndpoints webhooks slack,
      (Endpoint.redacted n.endpoint ≠ "<invalid>" ↔ Endpoint.toleratesBlanks n.endpoint = true) ∧
        (n.endpoint.trimSpace = n.endpoint → Endpoint.toleratesBlanks n.endpoint = true)) ∧
      ∀ carry p, p.fault? = none → (∀ r, ∃ body, carry r = .answer 200 body) →
        (dispatch (ofEndpoints webhooks slack) carry p).map (·.delivered) =
          (ofEndpoints webhooks slack).map fun n =>
            Endpoint.toleratesBlanks n.endpoint && (n.body? p).isSome := by
  have haccepted : ∀ n ∈ ofEndpoints webhooks slack, Endpoint.fault? n.endpoint = none := by
    intro n hn
    simpa using (List.mem_filter.1 hn).2
  refine ⟨fun n hn => ⟨Endpoint.redacted_ne_invalid_iff (haccepted n hn),
    Endpoint.toleratesBlanks_of_trimSpace_eq⟩, fun carry p hp hcarry => ?_⟩
  rw [dispatch, hp, List.map_map]
  exact List.map_congr_left fun n hn => deliver_accepted (haccepted n hn) hcarry

/-- The path of an address goes on with what is behind it, and nothing may stand in front. -/
theorem blank_behind_delivered :
    passed.fault? = none ∧
      (dispatch (ofEndpoints ["https://h.example/hook "] [" https://h.example/hook"])
        (fun _ => .answer 200 []) passed).map (·.delivered) = [true, false] := by
  have hpassed : passed.fault? = none := by decide
  refine ⟨hpassed, ?_⟩
  rw [(accepted_delivered_iff _ _).2 _ _ hpassed fun _ => ⟨[], rfl⟩]
  decide

theorem blank_in_front_not_delivered :
    Endpoint.fault? " https://h.example/hook" = none ∧
      Endpoint.redacted " https://h.example/hook" = "<invalid>" ∧
      passed.fault? = none ∧
      (dispatch (ofEndpoints [" https://h.example/hook"] []) (fun _ => .answer 200 []) passed).map
        (·.delivered) = [false] := by
  decide

end Notifier

end LiteralAudit
