import LiteralAudit.Proofs.Disk.Walk
import LiteralAudit.Proofs.Path.Clean

/-!
# Paths that go on below a directory

The path of a place below a directory is put together from the path of the directory and the names that
lead on from there. It leads to that place when the cleaned path leads to the directory
(`Disk.lstat_below`): cleaning takes back a part before each `..`, which is another directory when that
part is a link.
-/

namespace LiteralAudit

/-- A name that an entry can be given. -/
structure Path.Nameable (name : Text) : Prop extends Path.Plain name where
  length_le : name.length ≤ Disk.nameLimit
  noNul : (0 : UInt8) ∉ name

namespace Path

theorem isName_of_nameable {name : Text} (h : Nameable name) : Disk.IsName name :=
  ⟨by simpa using h.ne_dot, by simpa using h.ne_up, not_lt.2 h.length_le⟩

theorem nul_mem_join_iff {ks : List Text} :
    (0 : UInt8) ∈ Text.join "/" ks ↔ ∃ k ∈ ks, (0 : UInt8) ∈ k := by
  induction ks using List.reverseRecOn with
  | nil => simp [Text.join]
  | append_singleton ks k ih =>
    by_cases hnil : ks = []
    · simp [hnil, Text.join]
    · have hslash : (0 : UInt8) ∉ Text.ofString "/" := by decide
      rw [Text.join_concat _ hnil]
      simp [ih, hslash, or_and_right, exists_or]

theorem nul_mem_spell_iff {rooted : Bool} {ks : List Text} :
    (0 : UInt8) ∈ spell rooted ks ↔ ∃ k ∈ ks, (0 : UInt8) ∈ k := by
  have hslash : (0 : UInt8) ∉ Text.ofString "/" := by decide
  have hdot : (0 : UInt8) ∉ Text.ofString "." := by decide
  rw [spell]
  split
  · simp [nul_mem_join_iff, hslash]
  · split
    · next hempty => simp [List.isEmpty_iff.1 hempty, hdot]
    · exact nul_mem_join_iff

/-- A path that ends with a name does not end with a slash. -/
theorem asksForDir_spell_concat {rooted : Bool} {ks : List Text} {name : Text} (h : IsPart name) :
    Disk.asksForDir (spell rooted (ks ++ [name])) = false := by
  obtain ⟨hne, hslash⟩ := h
  have hlast : ∀ t : Text, (t ++ name).getLast? ≠ some ('/' : UInt8) := by
    intro t ht
    rw [List.getLast?_append_of_ne_nil _ hne] at ht
    exact hslash (List.mem_of_getLast? ht)
  rw [Disk.asksForDir, beq_eq_false_iff_ne, spell_concat]
  split
  · split
    · exact hlast [('/' : UInt8)]
    · exact hlast []
  · simpa using hlast (spell rooted ks ++ [('/' : UInt8)])

end Path

namespace Disk

variable {root : Entry}

/-- A walk to a directory goes on with other parts. It has followed all links on the way, since it was to
end at a directory. -/
theorem Leads.append {follow follow' : Bool} {links : Nat} {here todo base rest names : List Text}
    (h : Leads root follow links here todo base) (hbase : root.IsDirAt base) (hrest : rest ≠ [])
    (hon : ∀ links, Leads root follow' links base rest names) :
    Leads root follow' links here (todo ++ rest) names := by
  induction h with
  | stop => exact hon _
  | dot hdir hdot _ ih => exact .dot hdir hdot (ih hbase hon)
  | up hdir hdot hup _ ih => exact .up hdir hdot hup (ih hbase hon)
  | last hdir hname hlast _ => exact absurd hbase hlast
  | enter hdir hname hnext _ ih => exact .enter hdir hname hnext (ih hbase hon)
  | link hdir hname hget _ _ ih =>
    refine .link hdir hname hget (by simp [hrest]) ?_
    have hon := ih hbase hon
    rwa [List.append_assoc] at hon

/-- A dot between parts changes nothing. -/
theorem Leads.without_dot {follow : Bool} {links : Nat} {here before after names : List Text}
    (h : Leads root follow links here (before ++ Text.ofString "." :: after) names)
    (hafter : after ≠ []) : Leads root follow links here (before ++ after) names := by
  generalize htodo : before ++ Text.ofString "." :: after = todo at h
  induction h generalizing before with
  | stop => simp at htodo
  | dot hdir hdot hrest ih =>
    cases before with
    | nil =>
      obtain ⟨-, rfl⟩ := List.cons.inj htodo
      exact hrest
    | cons part before =>
      obtain ⟨rfl, htail⟩ := List.cons.inj htodo
      exact .dot hdir hdot (ih htail)
  | up hdir hdot hup hrest ih =>
    cases before with
    | nil =>
      obtain ⟨rfl, -⟩ := List.cons.inj htodo
      exact absurd (beq_self_eq_true _) hdot
    | cons part before =>
      obtain ⟨rfl, htail⟩ := List.cons.inj htodo
      exact .up hdir hdot hup (ih htail)
  | last hdir hname hlast hlink =>
    cases before with
    | nil =>
      exact absurd (List.cons.inj htodo).2 hafter
    | cons part before =>
      simpa using (List.cons.inj htodo).2
  | enter hdir hname hnext hrest ih =>
    cases before with
    | nil =>
      obtain ⟨rfl, -⟩ := List.cons.inj htodo
      exact absurd (beq_self_eq_true _) hname.1
    | cons part before =>
      obtain ⟨rfl, htail⟩ := List.cons.inj htodo
      exact .enter hdir hname hnext (ih htail)
  | @link links here part rest target names hdir hname hget hmore hrest ih =>
    cases before with
    | nil =>
      obtain ⟨rfl, -⟩ := List.cons.inj htodo
      exact absurd (beq_self_eq_true _) hname.1
    | cons part before =>
      obtain ⟨rfl, rfl⟩ := List.cons.inj htodo
      have hrest := @ih (Path.parts target ++ before) (by simp)
      rw [List.append_assoc] at hrest
      exact .link hdir hname hget (by simp [hafter]) hrest

/-- Names lead to what lies below a directory under these names. -/
theorem leads_names {base names : List Text} {x : Entry} (hbase : root.IsDirAt base)
    (hnames : ∀ k ∈ names, Path.Nameable k) (hget : root.get? (base ++ names) = some x) (links : Nat) :
    Leads root false links base names (base ++ names) := by
  induction names generalizing base with
  | nil =>
    rw [List.append_nil]
    exact .stop
  | cons name names ih =>
    obtain ⟨hname, hnames⟩ := List.forall_mem_cons.1 hnames
    have hsplit : base ++ name :: names = (base ++ [name]) ++ names := by simp
    rw [hsplit] at hget ⊢
    by_cases hnext : root.IsDirAt (base ++ [name])
    · exact .enter hbase (Path.isName_of_nameable hname) hnext (ih hnext hnames hget)
    · have hnil : names = [] := by
        by_contra hne
        exact hnext (Entry.exists_dir_above hget (List.prefix_append ..) (by simpa using hne))
      rw [hnil, List.append_nil]
      exact .last hbase (Path.isName_of_nameable hname) hnext (by simp)

/-- The cleaned path of a directory, and names behind it, lead to what the directory holds there. -/
theorem lstat_below {d : Disk} {path : Text} {names : List Text} {e x : Entry}
    (h : d.lstat (Path.clean path) = .ok e) (hnames : ∀ k ∈ names, Path.Nameable k) (hne : names ≠ [])
    (hget : e.get? names = some x) : d.lstat (Path.below path names) = .ok x := by
  have hplain : ∀ k ∈ names, Path.Plain k := fun k hk => (hnames k hk).toPlain
  have hkept := Path.normal_kept path
  have hnormal := Path.normal_kept_append hplain path
  obtain ⟨base, hplace⟩ := lookAt_eq_ok_iff.1 h
  obtain ⟨⟨-, hnul, hleads⟩, hbase, -⟩ := locate_eq_ok_iff.1 hplace
  have hdir : d.root.IsDirAt base := by
    obtain ⟨name, rest, rfl⟩ := List.exists_cons_of_ne_nil hne
    cases e with
    | dir es => exact ⟨es, hbase⟩
    | file content => cases hget
    | link target => cases hget
  have hfound : d.root.get? (base ++ names) = some x := by
    rw [Entry.get?_append, hbase]
    exact hget
  have hslash : asksForDir (Path.below path names) = false := by
    obtain ⟨above, name, rfl⟩ := (List.eq_nil_or_concat' names).resolve_left hne
    rw [Path.below_eq_spell hplain hne, ← List.append_assoc]
    exact Path.asksForDir_spell_concat (hplain name (by simp)).isPart
  rw [Path.clean_eq] at hnul hleads
  refine lookAt_eq_ok_iff.2 ⟨base ++ names, locate_eq_ok_iff.2 ⟨⟨?_, ?_, ?_⟩, hfound, ?_⟩⟩
  · rw [Path.below_eq_spell hplain hne]
    simpa using Path.spell_ne_nil hnormal
  · simp only [List.contains_eq_mem, decide_eq_false_iff_not] at hnul ⊢
    rw [Path.nul_mem_spell_iff] at hnul
    rw [Path.below_eq_spell hplain hne, Path.nul_mem_spell_iff]
    rintro ⟨k, hk, hzero⟩
    obtain hk | hk := List.mem_append.1 hk
    · exact hnul ⟨k, hk, hzero⟩
    · exact (hnames k hk).noNul hzero
  · have hon := hleads.append hdir hne (leads_names hdir hnames hfound)
    rw [hslash]
    rw [partsFromRoot, Path.isAbsolute_spell hkept, Path.parts_spell hkept] at hon
    rw [partsFromRoot, Path.below_eq_spell hplain hne, Path.isAbsolute_spell hnormal,
      Path.parts_spell hnormal]
    have hnonempty : (Path.kept path ++ names).isEmpty = false := by simpa using fun _ => hne
    rw [hnonempty, Bool.and_false, if_neg Bool.false_ne_true]
    by_cases hdot : (!Path.isAbsolute path && (Path.kept path).isEmpty) = true
    · rw [if_pos hdot, List.append_assoc] at hon
      rw [List.isEmpty_iff.1 (Bool.and_eq_true_iff.1 hdot).2]
      exact hon.without_dot hne
    · rwa [if_neg hdot, List.append_assoc] at hon
  · rw [hslash]
    exact fun h => by cases h

end Disk

end LiteralAudit
