import LiteralAudit.Proofs.Regex.Search
import LiteralAudit.Proofs.Regex.Words
import LiteralAudit.Proofs.Text.Utf8

/-!
# The language of an expression

Of its conditions and groups apart, an expression is a language of strings of characters
(`Regex.Says`). One that has neither leads past its strings and past nothing else, and leaves no mark
(`leads_iff_says`), in any text whatever: bytes that start no character count as U+FFFD. An expression
that is tied to both ends of the text is found in a text when the text as a whole is one of its strings
(`matchesIn_anchored`).

The marks of a match stand between characters (`Pattern.exists_front_of_mark`). So in a text that is
valid UTF-8 every group of a match holds valid UTF-8 (`Pattern.isUtf8_of_group?`), and the characters of
a group that is remembered last are a string of its expression (`Pattern.says_of_group?`).
-/

namespace LiteralAudit

namespace Regex

/-- The strings of an expression, its conditions and groups apart. -/
def Says : Regex → List Char → Prop
  | .empty, w | .place _, w => w = []
  | .chars set, w => ∃ c : Char, w = [c] ∧ set.mem c.toNat = true
  | .group _ body, w => body.Says w
  | .seq a b, w => ∃ u v, w = u ++ v ∧ a.Says u ∧ b.Says v
  | .alt a b, w => a.Says w ∨ b.Says w
  | .rep least most _ body, w =>
    ∃ ws : List (List Char), w = ws.flatten ∧ least ≤ ws.length ∧
      (∀ k ∈ most, ws.length ≤ max least k) ∧ ∀ v ∈ ws, body.Says v

/-- A plain expression passes one of its strings. -/
theorem Leads.exists_says {r : Regex} (hr : r.plain = true) {s u : Trail} (h : r.Leads s u) :
    u.marks = s.marks ∧ ∃ w, s.spot.Passes w u.spot ∧ r.Says (w.map (·.char)) := by
  induction r generalizing s u with
  | empty =>
    obtain rfl : u = s := h
    exact ⟨rfl, [], .refl _, rfl⟩
  | chars set =>
    obtain ⟨c, rest, hrest, hmem, rfl⟩ := h
    exact ⟨rfl, [c], .past hrest, c.char, rfl, hmem⟩
  | place p => cases hr
  | group n body => cases hr
  | seq a b iha ihb =>
    obtain ⟨ha, hb⟩ := Bool.and_eq_true_iff.1 hr
    obtain ⟨x, hsx, hxu⟩ := h
    obtain ⟨hmarks, v, hv, hsaid⟩ := iha ha hsx
    obtain ⟨hmarks', w, hw, hsaid'⟩ := ihb hb hxu
    exact ⟨hmarks'.trans hmarks, v ++ w, hv.trans hw, _, _, List.map_append, hsaid, hsaid'⟩
  | alt a b iha ihb =>
    obtain ⟨ha, hb⟩ := Bool.and_eq_true_iff.1 hr
    obtain h | h := h
    · obtain ⟨hmarks, w, hw, hsaid⟩ := iha ha h
      exact ⟨hmarks, w, hw, .inl hsaid⟩
    · obtain ⟨hmarks, w, hw, hsaid⟩ := ihb hb h
      exact ⟨hmarks, w, hw, .inr hsaid⟩
  | rep least most greedy body ih =>
    obtain ⟨n, hleast, hmost, hturns⟩ := h
    have hstrings : u.marks = s.marks ∧ ∃ w, s.spot.Passes w u.spot ∧
        ∃ ws : List (List Char), w.map (·.char) = ws.flatten ∧ ws.length = n ∧
          ∀ v ∈ ws, body.Says v := by
      clear hleast hmost
      induction n generalizing s with
      | zero =>
        obtain rfl : s = u := hturns
        exact ⟨rfl, [], .refl _, [], rfl, rfl, List.forall_mem_nil _⟩
      | succ n ihn =>
        obtain ⟨x, hsx, hxu⟩ := hturns
        obtain ⟨hmarks, v, hv, hsaid⟩ := ih hr hsx
        obtain ⟨hmarks', w, hw, ws, hflatten, hlength, hall⟩ := ihn hxu
        refine ⟨hmarks'.trans hmarks, v ++ w, hv.trans hw, v.map (·.char) :: ws, ?_, ?_,
          List.forall_mem_cons.2 ⟨hsaid, hall⟩⟩
        · rw [List.map_append, List.flatten_cons, hflatten]
        · rw [List.length_cons, hlength]
    obtain ⟨hmarks, w, hw, ws, hflatten, rfl, hall⟩ := hstrings
    exact ⟨hmarks, w, hw, ws, hflatten, hleast, hmost, hall⟩

/-- A plain expression passes each of its strings. -/
theorem Says.leads {r : Regex} (hr : r.plain = true) {s : Trail} {y : Spot} {w : List Rune}
    (hw : s.spot.Passes w y) (h : r.Says (w.map (·.char))) : r.Leads s ⟨y, s.marks⟩ := by
  induction r generalizing s y w with
  | empty =>
    obtain rfl : w = [] := List.map_eq_nil_iff.1 h
    rw [hw.eq_of_nil]
    rfl
  | chars set =>
    obtain ⟨c, hchars, hmem⟩ := h
    obtain ⟨d, rfl, rfl⟩ := List.map_eq_singleton_iff.1 hchars
    have hpast : s.past d y.rest = ⟨y, s.marks⟩ := by
      rw [Trail.past, (hw.of_cons hw.rest).eq_of_nil]
      rfl
    exact ⟨d, y.rest, hw.rest, hmem, hpast.symm⟩
  | place p => cases hr
  | group n body => cases hr
  | seq a b iha ihb =>
    obtain ⟨ha, hb⟩ := Bool.and_eq_true_iff.1 hr
    obtain ⟨c, d, hchars, hc, hd⟩ := h
    obtain ⟨v, w, rfl, rfl, rfl⟩ := List.map_eq_append_iff.1 hchars
    obtain ⟨z, hz, hy⟩ := hw.split
    exact ⟨_, iha ha hz hc, ihb hb hy hd⟩
  | alt a b iha ihb =>
    obtain ⟨ha, hb⟩ := Bool.and_eq_true_iff.1 hr
    obtain h | h := h
    · exact .inl (iha ha hw h)
    · exact .inr (ihb hb hw h)
  | rep least most greedy body ih =>
    obtain ⟨ws, hchars, hleast, hmost, hall⟩ := h
    refine ⟨ws.length, hleast, hmost, ?_⟩
    clear hleast hmost
    induction ws generalizing s w with
    | nil =>
      obtain rfl : w = [] := List.map_eq_nil_iff.1 hchars
      rw [hw.eq_of_nil]
      rfl
    | cons c ws ihws =>
      obtain ⟨hc, hws⟩ := List.forall_mem_cons.1 hall
      rw [List.flatten_cons] at hchars
      obtain ⟨v, w, rfl, rfl, hrest⟩ := List.map_eq_append_iff.1 hchars
      obtain ⟨z, hz, hy⟩ := hw.split
      exact ⟨_, ih hr hz hc, ihws hy hrest hws⟩

/-- What a plain expression leads past. -/
theorem leads_iff_says {r : Regex} (hr : r.plain = true) {s u : Trail} :
    r.Leads s u ↔ u.marks = s.marks ∧ ∃ w, s.spot.Passes w u.spot ∧ r.Says (w.map (·.char)) := by
  refine ⟨Leads.exists_says hr, ?_⟩
  rintro ⟨hmarks, w, hw, hsaid⟩
  rw [show u = ⟨u.spot, s.marks⟩ by rw [← hmarks]]
  exact hsaid.leads hr hw

/-! ## Sets and repetitions -/

theorem mem_char {c d : Char} : CharSet.mem [(c.toNat, c.toNat)] d.toNat = true ↔ d = c := by
  have hle : CharSet.mem [(c.toNat, c.toNat)] d.toNat = true ↔ c.toNat ≤ d.toNat ∧ d.toNat ≤ c.toNat := by
    simp [CharSet.mem]
  rw [hle, ← Nat.eq_iff_le_and_ge, eq_comm, Char.toNat_inj]

theorem says_char {c : Char} {w : List Char} : (char c).Says w ↔ w = [c] := by
  constructor
  · rintro ⟨d, rfl, hmem⟩
    rw [mem_char.1 hmem]
  · rintro rfl
    exact ⟨c, rfl, mem_char.2 rfl⟩

/-- Any number of turns of a set: characters of the set only. -/
theorem says_star_chars {set : CharSet} {greedy : Bool} {w : List Char} :
    (rep 0 none greedy (.chars set)).Says w ↔ ∀ c ∈ w, set.mem c.toNat = true := by
  constructor
  · rintro ⟨ws, rfl, -, -, hall⟩ c hc
    obtain ⟨v, hv, hcv⟩ := List.mem_flatten.1 hc
    obtain ⟨d, rfl, hmem⟩ := hall v hv
    rwa [List.mem_singleton.1 hcv]
  · intro hall
    refine ⟨w.map fun c => [c], ?_, Nat.zero_le _, by simp, ?_⟩
    · rw [← List.flatMap_def, List.flatMap_singleton']
    · intro v hv
      obtain ⟨c, hc, rfl⟩ := List.mem_map.1 hv
      exact ⟨c, rfl, hall c hc⟩

/-- At most one turn. -/
theorem says_opt {body : Regex} {greedy : Bool} {w : List Char} :
    (rep 0 (some 1) greedy body).Says w ↔ w = [] ∨ body.Says w := by
  constructor
  · rintro ⟨ws, rfl, -, hmost, hall⟩
    match ws, hmost 1 rfl with
    | [], _ => exact .inl rfl
    | [v], _ =>
      rw [List.flatten_cons, List.flatten_nil, List.append_nil]
      exact .inr (hall v List.mem_cons_self)
  · rintro (rfl | h)
    · exact ⟨[], rfl, Nat.zero_le _, by simp, List.forall_mem_nil _⟩
    · exact ⟨[w], (List.append_nil w).symm, Nat.zero_le _, by simp, List.forall_mem_singleton.2 h⟩

/-! ## Sequences -/

theorem leads_seqAll_cons {r : Regex} {rs : List Regex} {s u : Trail} :
    (seqAll (r :: rs)).Leads s u ↔ ∃ t, r.Leads s t ∧ (seqAll rs).Leads t u := by
  cases rs with
  | nil =>
    constructor
    · intro h
      exact ⟨u, h, rfl⟩
    · rintro ⟨t, h, rfl⟩
      exact h
  | cons _ _ => rfl

theorem leads_seqAll_append {rs qs : List Regex} {s u : Trail} :
    (seqAll (rs ++ qs)).Leads s u ↔ ∃ t, (seqAll rs).Leads s t ∧ (seqAll qs).Leads t u := by
  induction rs generalizing s with
  | nil =>
    constructor
    · intro h
      exact ⟨s, rfl, h⟩
    · rintro ⟨t, rfl, h⟩
      exact h
  | cons r rs ih =>
    simp only [List.cons_append, leads_seqAll_cons, ih]
    constructor
    · rintro ⟨x, hsx, t, hxt, htu⟩
      exact ⟨t, ⟨x, hsx, hxt⟩, htu⟩
    · rintro ⟨t, ⟨x, hsx, hxt⟩, htu⟩
      exact ⟨x, hsx, t, hxt, htu⟩

theorem plain_seqAll {rs : List Regex} (h : ∀ r ∈ rs, r.plain = true) : (seqAll rs).plain = true := by
  induction rs with
  | nil => rfl
  | cons r rs ih =>
    obtain ⟨hr, hrs⟩ := List.forall_mem_cons.1 h
    cases rs with
    | nil => exact hr
    | cons _ _ => exact Bool.and_eq_true_iff.2 ⟨hr, ih hrs⟩

/-- A string of a sequence is made of strings of its items. -/
theorem says_seqAll {rs : List Regex} {w : List Char} :
    (seqAll rs).Says w ↔ ∃ ws : List (List Char), w = ws.flatten ∧ List.Forall₂ Says rs ws := by
  induction rs generalizing w with
  | nil =>
    constructor
    · rintro rfl
      exact ⟨[], rfl, .nil⟩
    · rintro ⟨_, rfl, -, -⟩
      rfl
  | cons r rs ih =>
    have hcons : (seqAll (r :: rs)).Says w ↔ ∃ u v, w = u ++ v ∧ r.Says u ∧ (seqAll rs).Says v := by
      cases rs with
      | nil => exact ⟨fun h => ⟨w, [], (List.append_nil w).symm, h, rfl⟩,
          fun ⟨u, v, hw, hu, hv⟩ => by rwa [hw, show v = [] from hv, List.append_nil]⟩
      | cons _ _ => rfl
    rw [hcons]
    constructor
    · rintro ⟨u, v, rfl, hu, hv⟩
      obtain ⟨ws, rfl, hws⟩ := ih.1 hv
      exact ⟨u :: ws, rfl, .cons hu hws⟩
    · rintro ⟨_, rfl, hws⟩
      obtain _ | ⟨hu, hws⟩ := hws
      exact ⟨_, _, rfl, hu, ih.2 ⟨_, rfl, hws⟩⟩

/-! ## Tied to both ends -/

/-- The items between the start and the end of the text. -/
def anchored (rs : List Regex) : Regex := seqAll (.place .textStart :: rs ++ [.place .textEnd])

theorem leads_anchored {rs : List Regex} (hrs : ∀ r ∈ rs, r.plain = true) {s u : Trail} :
    (anchored rs).Leads s u ↔ s.spot.before = none ∧ u.spot.rest = [] ∧ u.marks = s.marks ∧
      ∃ w, s.spot.Passes w u.spot ∧ (seqAll rs).Says (w.map (·.char)) := by
  have hends : (anchored rs).Leads s u ↔
      s.spot.before.isNone = true ∧ (seqAll rs).Leads s u ∧ u.spot.after.isNone = true := by
    unfold anchored
    simp only [List.cons_append, leads_seqAll_cons, leads_seqAll_append]
    constructor
    · rintro ⟨_, ⟨hstart, rfl⟩, _, hlead, _, ⟨hend, rfl⟩, rfl⟩
      exact ⟨hstart, hlead, hend⟩
    · rintro ⟨hstart, hlead, hend⟩
      exact ⟨s, ⟨hstart, rfl⟩, u, hlead, u, ⟨hend, rfl⟩, rfl⟩
  rw [hends, leads_iff_says (plain_seqAll hrs), Option.isNone_iff_eq_none, Option.isNone_iff_eq_none,
    Spot.after, Option.map_eq_none_iff, List.head?_eq_none_iff]
  tauto

end Regex

namespace Pattern

/-- Items that are tied to both ends of the text are found in the texts that they make up. -/
theorem matchesIn_anchored {rs : List Regex} (hrs : ∀ r ∈ rs, r.plain = true) {p : Pattern}
    (hp : p.automaton = (Regex.anchored rs).automaton) (t : Text) :
    p.matchesIn t = true ↔ (Regex.seqAll rs).Says t.chars := by
  rw [matchesIn, find?, Option.isSome_map, hp]
  have hwhole : (spotOf 0 none 0 t).rest = t.runes := rfl
  constructor
  · intro h
    obtain ⟨a, ha⟩ := Option.isSome_iff_exists.1 h
    obtain ⟨y, v, u, hv, hlead, -⟩ := searchFrom_sound ha
    obtain ⟨hbefore, hrest, -, w, hw, hsaid⟩ := (Regex.leads_anchored hrs).1 hlead
    -- Nothing stands before the match, and nothing behind it.
    have hnone : v = [] := by
      have hlast := hv.before.symm.trans hbefore
      rw [Option.or_eq_none_iff, Option.map_eq_none_iff, List.getLast?_eq_none_iff] at hlast
      exact hlast.1
    rw [hnone] at hv
    have hruns := hwhole.symm.trans (hv.rest.trans (congrArg _ hw.rest))
    rw [hrest, List.append_nil, List.nil_append] at hruns
    rwa [Text.chars, hruns]
  · intro h
    have hpasses : (spotOf 0 none 0 t).Passes t.runes
        ⟨(t.runes.map (·.width)).sum, t.runes.getLast?.map (·.char), []⟩ :=
      ⟨(List.append_nil _).symm, (Nat.zero_add _).symm, (Option.or_none).symm⟩
    have hlead : (Regex.anchored rs).Leads ⟨spotOf 0 none 0 t, fun _ => none⟩
        ⟨⟨(t.runes.map (·.width)).sum, t.runes.getLast?.map (·.char), []⟩, fun _ => none⟩ :=
      (Regex.leads_anchored hrs).2 ⟨rfl, rfl, rfl, _, hpasses, h⟩
    exact searchFrom_complete (.refl _) hlead

end Pattern

open Regex

/-! ## Characters of a valid text -/

namespace Text

variable {t : Text} {front w rest : List Rune}

/-- Some first runes of a valid text are characters, and take the bytes that spell them. -/
theorem exists_split_of_runes (ht : t.isUtf8 = true) (h : t.runes = front ++ rest) :
    ∃ u : Text, t = ofChars (front.map (·.char)) ++ u ∧ u.runes = rest ∧ u.isUtf8 = true ∧
      (ofChars (front.map (·.char))).length = (front.map (·.width)).sum := by
  induction front generalizing t with
  | nil => exact ⟨t, rfl, h, ht, rfl⟩
  | cons r front ih =>
    obtain rfl | ⟨c, b, tail, after, rfl, hspelled, hafter⟩ := exists_spelled ht
    · cases h
    rw [runes_spelled hspelled, List.cons_append, List.cons.injEq] at h
    obtain ⟨rfl, hrunes⟩ := h
    obtain ⟨u, rfl, hu, hvalid, hlength⟩ := ih hafter hrunes
    refine ⟨u, ?_, hu, hvalid, ?_⟩
    · rw [List.map_cons, ofChars_cons, hspelled.ofChar_eq, List.append_assoc]
    · rw [List.map_cons, ofChars_cons, hspelled.ofChar_eq, List.length_append, hlength]
      rfl

end Text

namespace Pattern

variable {t : Text} {front w rest : List Rune}

/-- Between two places of a valid text that stand between characters there are the characters. -/
theorem slice_eq (ht : t.isUtf8 = true) (h : t.runes = front ++ w ++ rest) :
    slice t (front.map (·.width)).sum ((front ++ w).map (·.width)).sum =
      Text.ofChars (w.map (·.char)) := by
  obtain ⟨u, rfl, hu, hvalid, hlength⟩ := Text.exists_split_of_runes ht ((List.append_assoc ..).symm ▸ h)
  obtain ⟨v, rfl, -, -, hlength'⟩ := Text.exists_split_of_runes hvalid hu
  rw [List.map_append, List.sum_append, ← hlength, ← hlength', slice, List.drop_left,
    Nat.add_sub_cancel_left, List.take_left]

theorem isUtf8_slice (ht : t.isUtf8 = true) {front front' rest rest' : List Rune}
    (h : t.runes = front ++ rest) (h' : t.runes = front' ++ rest') :
    (slice t (front.map (·.width)).sum (front'.map (·.width)).sum).isUtf8 = true := by
  obtain ⟨w, rfl, -⟩ | ⟨w, rfl, -⟩ := List.append_eq_append_iff.1 (h.symm.trans h')
  · rw [slice_eq ht h']
    exact Text.isUtf8_ofChars _
  · -- The places stand the other way round.
    rw [slice, List.map_append, List.sum_append, Nat.sub_eq_zero_of_le (Nat.le_add_right ..)]
    rfl

end Pattern

/-! ## Marks -/

/-- A mark of `u` is one of `s`, or a place on the way from there. -/
def MarkedOnWay (s u : Trail) (b : Nat) : Prop :=
  u.marks b = s.marks b ∨ ∃ v y, s.spot.Passes v y ∧ u.marks b = some y.place

namespace MarkedOnWay

variable {s x u : Trail} {b : Nat}

theorem trans (h : MarkedOnWay s x b) (hpasses : ∃ v, s.spot.Passes v x.spot) (h' : MarkedOnWay x u b) :
    MarkedOnWay s u b := by
  obtain heq | ⟨w, y, hw, hplace⟩ := h'
  · exact h.imp (heq.trans ·) fun ⟨v, y, hv, hplace⟩ => ⟨v, y, hv, heq.trans hplace⟩
  · obtain ⟨v, hv⟩ := hpasses
    exact .inr ⟨v ++ w, y, hv.trans hw, hplace⟩

theorem pass (s : Trail) (borders : List Nat) (b : Nat) : MarkedOnWay s (s.pass borders) b := by
  by_cases hb : b ∈ borders
  · exact .inr ⟨[], s.spot, .refl _, if_pos hb⟩
  · exact .inl (if_neg hb)

end MarkedOnWay

/-- Every mark that an expression leaves is a place on its way. -/
theorem Regex.Leads.markedOnWay {r : Regex} {s u : Trail} (h : r.Leads s u) (b : Nat) :
    MarkedOnWay s u b := by
  induction r generalizing s u with
  | empty =>
    obtain rfl : u = s := h
    exact .inl rfl
  | chars set =>
    obtain ⟨c, rest, -, -, rfl⟩ := h
    exact .inl rfl
  | place p =>
    obtain ⟨-, rfl⟩ := h
    exact .inl rfl
  | group n body ih =>
    obtain ⟨x, hx, rfl⟩ := h
    refine (MarkedOnWay.pass s [2 * n] b).trans ⟨[], .refl _⟩ ?_
    exact (ih hx).trans hx.exists_passes (.pass x [2 * n + 1] b)
  | seq a c iha ihc =>
    obtain ⟨x, hsx, hxu⟩ := h
    exact (iha hsx).trans hsx.exists_passes (ihc hxu)
  | alt a c iha ihc =>
    obtain h | h := h
    · exact iha h
    · exact ihc h
  | rep least most greedy body ih =>
    obtain ⟨n, -, -, h⟩ := h
    induction n generalizing s with
    | zero =>
      obtain rfl : s = u := h
      exact .inl rfl
    | succ n ihn =>
      obtain ⟨x, hsx, hxu⟩ := h
      exact (ih hsx).trans hsx.exists_passes (ihn hxu)

namespace Pattern

variable {t : Text} {r : Regex} {m : Match}

/-- The marks of a match stand between runes. -/
theorem exists_front_of_mark (hm : Occurs r t m) {b i : Nat} (h : m.attempt.mark? b = some i) :
    ∃ front rest, t.runes = front ++ rest ∧ i = (front.map (·.width)).sum := by
  obtain ⟨front, x, u, hrunes, hplace, hlead, hends, -⟩ := hm
  have hon : MarkedOnWay (begun x) (u.pass [1]) b :=
    (hlead.markedOnWay b).trans hlead.exists_passes (.pass u [1] b)
  rw [hends] at h
  obtain hstart | ⟨v, y, hpasses, hmark⟩ := hon
  · have hmark : some i = if b = 0 then some x.place else none := by
      rw [← h, hstart]
      show [(0, x.place)].lookup b = _
      rw [List.lookup_cons, List.lookup_nil]
      by_cases hb : b = 0
      · rw [hb]
        rfl
      · rw [beq_false_of_ne hb, if_neg hb]
    split_ifs at hmark
    cases hmark
    exact ⟨front, x.rest, hrunes, hplace⟩
  · rw [h, Option.some.injEq] at hmark
    have hrest : x.rest = v ++ y.rest := hpasses.rest
    refine ⟨front ++ v, y.rest, by rw [hrunes, hrest, List.append_assoc], ?_⟩
    rw [hmark, hpasses.place, List.map_append, List.sum_append, ← hplace]
    rfl

/-- A group holds valid text where the text is valid. -/
theorem isUtf8_of_group? (ht : t.isUtf8 = true) (hm : Occurs r t m) {n : Nat} {g : Text}
    (h : m.group? t n = some g) : g.isUtf8 = true := by
  unfold Match.group? at h
  split at h
  · next i j hi hj =>
    obtain ⟨front, rest, hfront, rfl⟩ := exists_front_of_mark hm hi
    obtain ⟨front', rest', hfront', rfl⟩ := exists_front_of_mark hm hj
    cases h
    exact isUtf8_slice ht hfront hfront'
  · cases h

/-- An expression that ends in a group: in a valid text the group holds the characters of one of its
strings. -/
theorem says_of_group? {key body : Regex} {n : Nat} (ht : t.isUtf8 = true)
    (hm : Occurs (.seq key (.group n body)) t m) (hn : n ≠ 0) (hbody : body.plain = true) :
    ∃ w, body.Says w ∧ m.group? t n = some (Text.ofChars w) := by
  obtain ⟨front, x, u, hrunes, hplace, ⟨s, hkey, z, hz, rfl⟩, hends, -⟩ := hm
  obtain ⟨v, hv⟩ := hkey.exists_passes
  obtain ⟨hmarks, w, hw, hsaid⟩ := hz.exists_says hbody
  refine ⟨_, hsaid, ?_⟩
  have hopen : m.attempt.mark? (2 * n) = some s.spot.place := by
    calc m.attempt.mark? (2 * n) = ((z.pass [2 * n + 1]).pass [1]).marks (2 * n) := by rw [hends]
      _ = (z.pass [2 * n + 1]).marks (2 * n) := if_neg (by simp)
      _ = z.marks (2 * n) := if_neg (by simp)
      _ = (s.pass [2 * n]).marks (2 * n) := by rw [hmarks]
      _ = some s.spot.place := if_pos (by simp)
  have hclose : m.attempt.mark? (2 * n + 1) = some z.spot.place := by
    calc m.attempt.mark? (2 * n + 1) = ((z.pass [2 * n + 1]).pass [1]).marks (2 * n + 1) := by rw [hends]
      _ = (z.pass [2 * n + 1]).marks (2 * n + 1) := if_neg (by simpa using hn)
      _ = some z.spot.place := if_pos (by simp)
  have hstart : s.spot.place = ((front ++ v).map (·.width)).sum := by
    rw [hv.place, List.map_append, List.sum_append, ← hplace]
    rfl
  have hstop : z.spot.place = ((front ++ v ++ w).map (·.width)).sum := by
    rw [hw.place, List.map_append, List.sum_append, ← hstart]
    rfl
  have hrest : x.rest = v ++ (w ++ z.spot.rest) := hv.rest.trans (congrArg (v ++ ·) hw.rest)
  have hsplit : t.runes = front ++ v ++ w ++ z.spot.rest := by
    rw [hrunes, hrest]
    simp
  simp only [Match.group?, hopen, hclose]
  rw [hstart, hstop, slice_eq ht hsplit]

end Pattern

end LiteralAudit
