import LiteralAudit.Path
import Mathlib

/-!
# Cleaned paths

`Path.clean` keeps the parts of a path that count, `Path.kept`, and spells them again: a cleaned path is
`Path.spell` of a `Normal` list of parts, and cleaning it once more changes nothing (`clean_spell`). A
name of a file is `Plain`: it is not empty, has no slash and is not made of dots. A path that is put
together from a directory and a plain name is spelled from the parts of the directory and the name
(`join_eq_spell`), so that the name can be told from it again (`relative?_spell`, `base_spell`,
`parent_spell`).
-/

namespace LiteralAudit

namespace Text

/-! ## Splitting and joining -/

theorem splitOn_eq (sep : UInt8) (t : Text) : splitOn sep t = List.splitOn sep t := by
  let step : List Text × Text → UInt8 → List Text × Text := fun x b =>
    if b == sep then (x.2.reverse :: x.1, []) else (x.1, b :: x.2)
  suffices h : ∀ x : List Text × Text,
      ((t.foldl step x).2.reverse :: (t.foldl step x).1).reverse =
        x.1.reverse ++ List.splitOnPPrepend (· == sep) t x.2 from
    h ([], [])
  induction t with
  | nil => simp
  | cons b t ih =>
    rintro ⟨done, part⟩
    rw [List.foldl_cons, ih, List.splitOnPPrepend_cons_eq_if]
    by_cases hb : b = sep
    · simp [step, hb]
    · simp [step, hb]

theorem not_mem_of_mem_splitOn {sep : UInt8} {t part : Text} (h : part ∈ List.splitOn sep t) :
    sep ∉ part := by
  induction t generalizing part with
  | nil =>
    rw [List.splitOn_nil, List.mem_singleton] at h
    rw [h]
    exact List.not_mem_nil
  | cons b t ih =>
    rw [List.splitOn_cons_eq_if_modifyHead] at h
    split at h
    · obtain rfl | h := List.mem_cons.1 h
      · exact List.not_mem_nil
      · exact ih h
    · next hb =>
      cases hrest : List.splitOn sep t with
      | nil => exact absurd hrest (List.splitOn_ne_nil sep t)
      | cons first rest =>
        rw [hrest] at h ih
        obtain rfl | h := List.mem_cons.1 h
        · rw [List.mem_cons, not_or]
          refine ⟨?_, ih List.mem_cons_self⟩
          rintro rfl
          exact hb (beq_self_eq_true _)
        · exact ih (List.mem_cons_of_mem _ h)

theorem join_eq (sep : Text) (parts : List Text) : join sep parts = sep.intercalate parts := by
  induction parts with
  | nil => rfl
  | cons part parts ih =>
    cases parts with
    | nil => simp [join]
    | cons next parts =>
      rw [List.intercalate_cons_cons, ← ih]
      simp [join]

theorem join_concat (sep : Text) {parts : List Text} (h : parts ≠ []) (part : Text) :
    join sep (parts ++ [part]) = join sep parts ++ sep ++ part := by
  cases parts with
  | nil => exact absurd rfl h
  | cons first parts => simp [join]

end Text

namespace Path

/-- A part of a path between slashes. -/
def IsPart (part : Text) : Prop := part ≠ [] ∧ ('/' : UInt8) ∉ part

/-- A name that a file or a directory can have. -/
structure Plain (name : Text) : Prop where
  isPart : IsPart name
  ne_dot : name ≠ Text.ofString "."
  ne_up : name ≠ Text.ofString ".."

instance (part : Text) : Decidable (IsPart part) := inferInstanceAs (Decidable (_ ∧ _))

instance (name : Text) : Decidable (Plain name) :=
  decidable_of_iff (IsPart name ∧ name ≠ Text.ofString "." ∧ name ≠ Text.ofString "..")
    ⟨fun ⟨h, hdot, hup⟩ => ⟨h, hdot, hup⟩, fun ⟨h, hdot, hup⟩ => ⟨h, hdot, hup⟩⟩

/-! ## Parts -/

theorem parts_eq (p : Text) : parts p = (List.splitOn ('/' : UInt8) p).filter (!·.isEmpty) := by
  rw [parts, Text.splitOn_eq]

theorem isPart_of_mem_parts {p part : Text} (h : part ∈ parts p) : IsPart part := by
  rw [parts_eq, List.mem_filter] at h
  exact ⟨by simpa using h.2, Text.not_mem_of_mem_splitOn h.1⟩

@[simp] theorem parts_nil : parts [] = [] := rfl

theorem parts_append_slash (p q : Text) : parts (p ++ ('/' : UInt8) :: q) = parts p ++ parts q := by
  rw [parts_eq, parts_eq, parts_eq, List.splitOn_append_cons_self, List.filter_append]

theorem parts_of_isPart {part : Text} (h : IsPart part) : parts part = [part] := by
  rw [parts_eq, List.splitOn_eq_singleton h.2]
  simp [h.1]

theorem parts_join {ks : List Text} (h : ∀ k ∈ ks, IsPart k) : parts (Text.join "/" ks) = ks := by
  by_cases hks : ks = []
  · rw [hks]
    rfl
  · have hslash : ∀ k ∈ ks, ('/' : UInt8) ∉ k := fun k hk => (h k hk).2
    rw [parts_eq, Text.join_eq, show Text.ofString "/" = [('/' : UInt8)] from rfl,
      List.splitOn_intercalate _ hslash hks, List.filter_eq_self]
    intro k hk
    simpa using (h k hk).1

theorem join_ne_nil {ks : List Text} (h : ∀ k ∈ ks, IsPart k) (hne : ks ≠ []) :
    Text.join "/" ks ≠ [] := by
  intro hnil
  have hparts := parts_join h
  rw [hnil] at hparts
  exact hne hparts.symm

theorem isAbsolute_append {p : Text} (h : p ≠ []) (q : Text) : isAbsolute (p ++ q) = isAbsolute p := by
  cases p with
  | nil => exact absurd rfl h
  | cons b p => rfl

theorem isAbsolute_of_isPart {part : Text} (h : IsPart part) : isAbsolute part = false := by
  obtain ⟨hne, hslash⟩ := h
  cases part with
  | nil => exact absurd rfl hne
  | cons b part =>
    rw [isAbsolute, List.head?_cons, beq_eq_false_iff_ne, ne_eq, Option.some.injEq]
    rintro rfl
    exact hslash List.mem_cons_self

theorem isAbsolute_join {ks : List Text} (h : ∀ k ∈ ks, IsPart k) :
    isAbsolute (Text.join "/" ks) = false := by
  cases ks with
  | nil => rfl
  | cons k ks =>
    have hk := h k List.mem_cons_self
    rw [Text.join, isAbsolute_append hk.1, isAbsolute_of_isPart hk]

/-! ## Parts that count -/

/-- The parts of a path that cleaning keeps, and whether it starts at the root. -/
def kept (p : Text) : List Text := ((parts p).foldl (reduce (isAbsolute p)) []).reverse

/-- A cleaned path with the parts given. -/
def spell (rooted : Bool) (ks : List Text) : Text :=
  if rooted then "/" ++ Text.join "/" ks else if ks.isEmpty then "." else Text.join "/" ks

theorem clean_eq (p : Text) : clean p = spell (isAbsolute p) (kept p) := rfl

/-- The parts of a cleaned path: plain names behind parts that lead up from the working directory. -/
def Normal (rooted : Bool) (ks : List Text) : Prop :=
  ∃ ups names, ks = ups ++ names ∧ (∀ k ∈ ups, k = Text.ofString "..") ∧ (∀ k ∈ names, Plain k) ∧
    (rooted = true → ups = [])

namespace Normal

theorem nil (rooted : Bool) : Normal rooted [] := ⟨[], [], by simp⟩

variable {rooted : Bool} {ks : List Text}

theorem isPart (h : Normal rooted ks) : ∀ k ∈ ks, IsPart k := by
  obtain ⟨ups, names, rfl, hups, hnames, -⟩ := h
  intro k hk
  obtain hk | hk := List.mem_append.1 hk
  · rw [hups k hk]
    exact ⟨by decide, by decide⟩
  · exact (hnames k hk).isPart

theorem concat (h : Normal rooted ks) {name : Text} (hname : Plain name) :
    Normal rooted (ks ++ [name]) := by
  obtain ⟨ups, names, rfl, hups, hnames, hrooted⟩ := h
  refine ⟨ups, names ++ [name], List.append_assoc .., hups, ?_, hrooted⟩
  intro k hk
  obtain hk | hk := List.mem_append.1 hk
  · exact hnames k hk
  · rwa [List.mem_singleton.1 hk]

theorem append (h : Normal rooted ks) {names : List Text} (hnames : ∀ k ∈ names, Plain k) :
    Normal rooted (ks ++ names) := by
  induction names generalizing ks with
  | nil => simpa using h
  | cons name names ih =>
    have hrest := ih (h.concat (hnames name List.mem_cons_self))
      fun k hk => hnames k (List.mem_cons_of_mem _ hk)
    simpa using hrest

theorem dropLast (h : Normal rooted ks) : Normal rooted ks.dropLast := by
  obtain ⟨ups, names, rfl, hups, hnames, hrooted⟩ := h
  by_cases hne : names = []
  · subst hne
    refine ⟨ups.dropLast, [], by simp, fun k hk => hups k (List.mem_of_mem_dropLast hk), by simp, ?_⟩
    intro h
    rw [hrooted h]
    rfl
  · exact ⟨ups, names.dropLast, List.dropLast_append_of_ne_nil hne, hups,
      fun k hk => hnames k (List.mem_of_mem_dropLast hk), hrooted⟩

/-- Only parts that lead up stand before one that does. -/
theorem all_up (h : Normal rooted (ks ++ [Text.ofString ".."])) :
    rooted = false ∧ ∀ k ∈ ks, k = Text.ofString ".." := by
  obtain ⟨ups, names, heq, hups, hnames, hrooted⟩ := h
  obtain rfl | ⟨init, last, rfl⟩ := List.eq_nil_or_concat names
  · rw [List.append_nil] at heq
    rw [← heq] at hups hrooted
    refine ⟨?_, fun k hk => hups k (List.mem_append_left _ hk)⟩
    rw [Bool.eq_false_iff]
    intro h
    exact absurd (hrooted h) (by simp)
  · rw [List.concat_eq_append, ← List.append_assoc] at heq
    have hlast : Plain last := hnames last (by simp)
    obtain ⟨-, hup⟩ := List.append_inj' heq rfl
    exact absurd (List.singleton_inj.1 hup).symm hlast.ne_up

/-- A part that stands behind one that does not lead up is a name. -/
theorem plain_of_not_up {name : Text} (h : Normal rooted (ks ++ [name])) (hne : ks ≠ [])
    (hup : ∀ above, ks ≠ above ++ [Text.ofString ".."]) : Plain name := by
  by_cases hname : name = Text.ofString ".."
  · subst hname
    have hlast := h.all_up.2 (ks.getLast hne) (List.getLast_mem hne)
    have hks := List.dropLast_append_getLast hne
    rw [hlast] at hks
    exact absurd hks.symm (hup _)
  · obtain ⟨ups, names, heq, hups, hnames, -⟩ := h
    have hmem : name ∈ ups ++ names := heq ▸ List.mem_append_right _ (List.mem_singleton.2 rfl)
    obtain hmem | hmem := List.mem_append.1 hmem
    · exact absurd (hups name hmem) hname
    · exact hnames name hmem

end Normal

theorem reduce_of_plain (rooted : Bool) (stack : List Text) {name : Text} (h : Plain name) :
    reduce rooted stack name = name :: stack := by
  have hdot := beq_eq_false_iff_ne.2 h.ne_dot
  have hup := beq_eq_false_iff_ne.2 h.ne_up
  simp only [reduce, hdot, hup, Bool.false_eq_true, if_false]

theorem reduce_up (rooted : Bool) (stack : List Text) :
    reduce rooted stack (Text.ofString "..") =
      match stack with
      | [] => if rooted then [] else [Text.ofString ".."]
      | last :: rest => if last == Text.ofString ".." then Text.ofString ".." :: last :: rest else rest := by
  cases stack with
  | nil => rfl
  | cons last rest => rfl

theorem normal_ups {ks : List Text} (h : ∀ k ∈ ks, k = Text.ofString "..") : Normal false ks :=
  ⟨ks, [], by simp, h, by simp, by simp⟩

/-- The parts that are kept stay a normal list when another part is read. -/
theorem normal_reduce {rooted : Bool} {stack : List Text} (h : Normal rooted stack.reverse)
    {part : Text} (hpart : IsPart part) : Normal rooted (reduce rooted stack part).reverse := by
  by_cases hdot : part = Text.ofString "."
  · simpa only [reduce, hdot, beq_self_eq_true, if_true] using h
  · by_cases hup : part = Text.ofString ".."
    · rw [hup, reduce_up]
      cases stack with
      | nil =>
        cases rooted with
        | true => exact Normal.nil true
        | false => exact normal_ups (by simp)
      | cons last rest =>
        rw [List.reverse_cons] at h
        dsimp only
        split
        · next hlast =>
          rw [eq_of_beq hlast] at h ⊢
          obtain ⟨rfl, hrest⟩ := h.all_up
          refine normal_ups ?_
          simp only [List.mem_reverse, List.mem_cons] at hrest ⊢
          rintro k (rfl | rfl | hk)
          · rfl
          · rfl
          · exact hrest k hk
        · simpa using h.dropLast
    · rw [reduce_of_plain rooted stack ⟨hpart, hdot, hup⟩, List.reverse_cons]
      exact h.concat ⟨hpart, hdot, hup⟩

theorem normal_foldl_reduce {rooted : Bool} {ps stack : List Text} (h : Normal rooted stack.reverse)
    (hps : ∀ part ∈ ps, IsPart part) : Normal rooted (ps.foldl (reduce rooted) stack).reverse := by
  induction ps generalizing stack with
  | nil => exact h
  | cons part ps ih =>
    have hpart := normal_reduce h (hps part List.mem_cons_self)
    exact ih hpart fun k hk => hps k (List.mem_cons_of_mem _ hk)

theorem normal_kept (p : Text) : Normal (isAbsolute p) (kept p) :=
  normal_foldl_reduce (Normal.nil _) fun _ => isPart_of_mem_parts

/-- Nothing is taken away from a normal list. -/
theorem foldl_reduce_normal {rooted : Bool} {ks : List Text} (h : Normal rooted ks) :
    ks.foldl (reduce rooted) [] = ks.reverse := by
  induction ks using List.reverseRecOn with
  | nil => rfl
  | append_singleton ks k ih =>
    have hinit : Normal rooted ks := by simpa using h.dropLast
    rw [List.foldl_concat, ih hinit, List.reverse_concat]
    by_cases hup : k = Text.ofString ".."
    · subst hup
      obtain ⟨rfl, hups⟩ := h.all_up
      rw [reduce_up]
      cases hks : ks.reverse with
      | nil => rfl
      | cons last rest =>
        have hlast : last = Text.ofString ".." := by
          refine hups last ?_
          rw [← List.mem_reverse, hks]
          exact List.mem_cons_self
        simp [hlast]
    · obtain ⟨ups, names, heq, hups, hnames, -⟩ := h
      refine reduce_of_plain _ _ ?_
      have hk : k ∈ ups ++ names := by
        rw [← heq]
        simp
      obtain hk | hk := List.mem_append.1 hk
      · exact absurd (hups k hk) hup
      · exact hnames k hk

/-! ## Spelling -/

section Spell

variable {rooted : Bool} {ks : List Text} (h : Normal rooted ks)

include h

theorem spell_ne_nil : spell rooted ks ≠ [] := by
  unfold spell
  split
  · simp [show Text.ofString "/" = [('/' : UInt8)] from rfl]
  · split
    · decide
    · next hks => exact join_ne_nil h.isPart (by simpa using hks)

theorem isAbsolute_spell : isAbsolute (spell rooted ks) = rooted := by
  unfold spell
  split
  · next hr => rw [hr]; rfl
  · next hr =>
    rw [Bool.eq_false_iff.2 hr]
    split
    · rfl
    · exact isAbsolute_join h.isPart

/-- Only the working directory itself has another part than those that it is spelled from. -/
theorem parts_spell :
    parts (spell rooted ks) = if !rooted && ks.isEmpty then [Text.ofString "."] else ks := by
  unfold spell
  cases rooted with
  | true =>
    rw [if_pos rfl]
    exact (parts_append_slash [] _).trans (parts_join h.isPart)
  | false =>
    rw [if_neg Bool.false_ne_true, Bool.not_false, Bool.true_and]
    split
    · rfl
    · exact parts_join h.isPart

theorem kept_spell : kept (spell rooted ks) = ks := by
  rw [kept, isAbsolute_spell h, parts_spell h]
  split
  · next hempty =>
    obtain ⟨-, hks⟩ := Bool.and_eq_true_iff.1 hempty
    rw [List.isEmpty_iff.1 hks]
    rfl
  · rw [foldl_reduce_normal h, List.reverse_reverse]

theorem clean_spell : clean (spell rooted ks) = spell rooted ks := by
  rw [clean_eq, isAbsolute_spell h, kept_spell h]

theorem spell_injective {ks' : List Text} (h' : Normal rooted ks')
    (heq : spell rooted ks = spell rooted ks') : ks = ks' := by
  rw [← kept_spell h, heq, kept_spell h']

end Spell

/-! ## Names put to directories -/

theorem kept_append {a : Text} (ha : a ≠ []) {name : Text} (h : Plain name) :
    kept (a ++ ('/' : UInt8) :: name) = kept a ++ [name] := by
  rw [kept, isAbsolute_append ha, parts_append_slash, parts_of_isPart h.isPart, List.foldl_concat,
    reduce_of_plain _ _ h, List.reverse_cons, kept]

/-- A name that is put to a directory stands behind the parts of the directory. -/
theorem join_eq_spell (a : Text) {name : Text} (h : Plain name) :
    join [a, name] = spell (isAbsolute a) (kept a ++ [name]) := by
  have hname : ([name].filter (!·.isEmpty)) = [name] := by simp [h.isPart.1]
  by_cases ha : a = []
  · subst ha
    have hjoin : join [[], name] = clean (Text.join "/" [name]) := by simp [join, h.isPart.1]
    have hkept : kept name = [name] := by
      rw [kept, parts_of_isPart h.isPart, List.foldl_cons, List.foldl_nil, reduce_of_plain _ _ h]
      rfl
    rw [hjoin, clean_eq, show Text.join "/" [name] = name by simp [Text.join],
      isAbsolute_of_isPart h.isPart, hkept]
    rfl
  · have hjoin : join [a, name] = clean (Text.join "/" [a, name]) := by simp [join, ha, h.isPart.1]
    have htext : Text.join "/" [a, name] = a ++ ('/' : UInt8) :: name := by
      simp [Text.join, show Text.ofString "/" = [('/' : UInt8)] from rfl]
    rw [hjoin, htext, clean_eq, isAbsolute_append ha, kept_append ha h]

/-- Names below a directory, put to it one after the other. -/
def below (root : Text) (names : List Text) : Text := names.foldl (fun p name => join [p, name]) root

@[simp] theorem below_nil (root : Text) : below root [] = root := rfl

theorem below_concat (root : Text) (names : List Text) (name : Text) :
    below root (names ++ [name]) = join [below root names, name] := by
  rw [below, List.foldl_concat]
  rfl

/-- Only the working directory is spelled as a dot. -/
theorem spell_eq_dot_iff {rooted : Bool} {ks : List Text} (h : Normal rooted ks) :
    spell rooted ks = Text.ofString "." ↔ rooted = false ∧ ks = [] := by
  constructor
  · intro heq
    have hdot : spell rooted ks = spell false [] := heq
    have hrooted := isAbsolute_spell h
    have hks := kept_spell h
    rw [hdot] at hrooted hks
    exact ⟨hrooted.symm, hks.symm⟩
  · rintro ⟨rfl, rfl⟩
    rfl

theorem places_start (p : Text) : places true p = kept p := by
  have hnormal := normal_kept p
  have hdot := spell_eq_dot_iff hnormal
  have hparts := parts_spell hnormal
  rw [places, clean_eq]
  by_cases h : isAbsolute p = false ∧ kept p = []
  · rw [hdot.2 h, h.2]
    rfl
  · have hne : (spell (isAbsolute p) (kept p) == Text.ofString ".") = false :=
      beq_eq_false_iff_ne.2 (mt hdot.1 h)
    have hcond : (!isAbsolute p && (kept p).isEmpty) = false := by simpa using h
    rw [hne, hparts, hcond]
    rfl

theorem dropCommon_append (ks names : List Text) : dropCommon ks (ks ++ names) = ([], names) := by
  induction ks with
  | nil => cases names <;> rfl
  | cons k ks ih => simpa [dropCommon] using ih

section Below

variable {root : Text} {names : List Text} (h : ∀ name ∈ names, Plain name)

include h

theorem normal_kept_append (root : Text) : Normal (isAbsolute root) (kept root ++ names) :=
  (normal_kept root).append h

theorem below_eq_spell (hne : names ≠ []) :
    below root names = spell (isAbsolute root) (kept root ++ names) := by
  induction names using List.reverseRecOn with
  | nil => exact absurd rfl hne
  | append_singleton init name ih =>
    have hinit : ∀ k ∈ init, Plain k := fun k hk => h k (List.mem_append_left _ hk)
    have hname : Plain name := h name (by simp)
    rw [below_concat, join_eq_spell _ hname]
    by_cases hnil : init = []
    · rw [hnil]
      rfl
    · have hnormal := normal_kept_append hinit root
      rw [ih hinit hnil, isAbsolute_spell hnormal, kept_spell hnormal, List.append_assoc]

/-- A place below a directory is not spelled like the directory. -/
theorem below_ne_root (hne : names ≠ []) : below root names ≠ root := by
  intro heq
  have hkept := congrArg kept heq
  rw [below_eq_spell h hne, kept_spell (normal_kept_append h root)] at hkept
  exact hne (List.append_right_eq_self.1 hkept)

theorem clean_below (hne : names ≠ []) :
    clean (below root names) = spell (isAbsolute root) (kept root ++ names) := by
  rw [below_eq_spell h hne, clean_spell (normal_kept_append h root)]

/-- The way from a directory to a place below it are the names that lead there. -/
theorem relative?_below (hne : names ≠ []) :
    relative? root (below root names) = some (Text.join "/" names) := by
  have hnormal := normal_kept_append h root
  have hdiffer : (clean root == clean (below root names)) = false := by
    rw [beq_eq_false_iff_ne, clean_below h hne, clean_eq]
    intro heq
    have hnames := spell_injective (normal_kept root) hnormal heq
    exact hne (List.append_right_eq_self.1 hnames.symm)
  have hrooted : (isAbsolute (clean root) != isAbsolute (clean (below root names))) = false := by
    rw [clean_below h hne, clean_eq, isAbsolute_spell hnormal, isAbsolute_spell (normal_kept root),
      bne_self_eq_false]
  have hgoal : places false (below root names) = kept root ++ names := by
    rw [places, clean_below h hne, parts_spell hnormal]
    simp [hne]
  rw [relative?, hdiffer, hrooted, places_start, hgoal, dropCommon_append]
  rfl

end Below

theorem base_join {names : List Text} {name : Text} (h : ∀ k ∈ names ++ [name], IsPart k) :
    base (Text.join "/" (names ++ [name])) = name := by
  have hne : Text.join "/" (names ++ [name]) ≠ [] := join_ne_nil h (by simp)
  rw [base, if_neg (by simpa using hne), parts_join h]
  simp

/-! ## The directory of a path -/

theorem lastIndexOfByte?_append {p q : Text} {b : UInt8} (h : b ∉ q) :
    Text.lastIndexOfByte? (p ++ b :: q) b = some p.length := by
  have hfind : (q.reverse ++ b :: p.reverse).findIdx? (· == b) = some q.length := by
    rw [List.findIdx?_append]
    have hnone : q.reverse.findIdx? (· == b) = none := by
      rw [List.findIdx?_eq_none_iff]
      intro c hc
      rw [beq_eq_false_iff_ne]
      rintro rfl
      exact h (List.mem_reverse.1 hc)
    simp [hnone, List.findIdx?_cons]
  have hreverse : (p ++ b :: q).reverse = q.reverse ++ b :: p.reverse := by simp
  rw [Text.lastIndexOfByte?, hreverse, hfind, Option.map_some]
  congr 1
  simp

theorem lastIndexOfByte?_eq_none {q : Text} {b : UInt8} (h : b ∉ q) :
    Text.lastIndexOfByte? q b = none := by
  rw [Text.lastIndexOfByte?, Option.map_eq_none_iff, List.findIdx?_eq_none_iff]
  intro c hc
  rw [beq_eq_false_iff_ne]
  rintro rfl
  exact h (List.mem_reverse.1 hc)

/-- How a cleaned path with a name at its end is spelled. -/
theorem spell_concat (rooted : Bool) (ks : List Text) (name : Text) :
    spell rooted (ks ++ [name]) =
      if ks = [] then (if rooted then ('/' : UInt8) :: name else name)
      else spell rooted ks ++ ('/' : UInt8) :: name := by
  have hslash : Text.ofString "/" = [('/' : UInt8)] := rfl
  by_cases hks : ks = []
  · subst hks
    cases rooted <;> simp [spell, Text.join, hslash]
  · cases rooted <;> simp [spell, hks, Text.join_concat, hslash]

/-- A slash at the end does not count. -/
theorem clean_append_slash {p : Text} (h : p ≠ []) : clean (p ++ [('/' : UInt8)]) = clean p := by
  rw [clean_eq, clean_eq, isAbsolute_append h, kept, parts_append_slash, isAbsolute_append h,
    parts_nil, List.append_nil, kept]

section Parent

variable {rooted : Bool} {ks : List Text} (h : Normal rooted ks) {name : Text}

include h

theorem parent_spell (hname : IsPart name) : parent (spell rooted (ks ++ [name])) = spell rooted ks := by
  have hslash := hname.2
  rw [spell_concat]
  split
  · next hks =>
    subst hks
    cases rooted with
    | true =>
      have hlast := lastIndexOfByte?_append (p := []) hslash
      rw [if_pos rfl, parent, show ('/' : UInt8) :: name = [] ++ ('/' : UInt8) :: name from rfl, hlast]
      rfl
    | false =>
      rw [if_neg Bool.false_ne_true, parent, lastIndexOfByte?_eq_none hslash]
      rfl
  · have htake : (spell rooted ks ++ ('/' : UInt8) :: name).take ((spell rooted ks).length + 1) =
        spell rooted ks ++ [('/' : UInt8)] := by
      simp [List.take_append]
    rw [parent, lastIndexOfByte?_append hslash]
    dsimp only
    rw [htake, clean_append_slash (spell_ne_nil h), clean_spell h]

theorem base_spell (hname : Plain name) : base (spell rooted (ks ++ [name])) = name := by
  have hnormal := h.concat hname
  rw [base, if_neg (by simpa using spell_ne_nil hnormal), parts_spell hnormal]
  simp

end Parent

end Path

end LiteralAudit
