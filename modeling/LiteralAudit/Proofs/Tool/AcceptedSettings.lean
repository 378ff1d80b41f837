import LiteralAudit.Proofs.Glob.Matching
import LiteralAudit.Proofs.Notify.Blanks
import LiteralAudit.Proofs.Notify.Isolation
import LiteralAudit.Proofs.Tool.Steps

/-!
# Settings that are accepted can be used

A configuration is checked when it is loaded. What is made of it later, by every command that scans, is
then made without fault (`Tool.accepted_settings_can_be_used`): the whitelist, the library, the notifiers
and the scanner. Globs are not checked when a configuration is loaded. Nothing can be wrong with one but
that its expression is too large (`Glob.Fits`), for which it needs more than 1 677 720 characters.
-/

namespace LiteralAudit

/-! ## Lengths -/

namespace Text

theorem length_trimSpace_le (t : Text) : t.trimSpace.length ≤ t.length := by
  obtain ⟨front, back, ht, -⟩ := t.exists_blanks
  have hlength := congrArg List.length ht
  rw [List.length_append, List.length_append] at hlength
  omega

theorem length_dropFront_le (front t : Text) : (dropFront front t).length ≤ t.length := by
  unfold dropFront
  cases hrest : dropFront? front t with
  | none => exact le_rfl
  | some rest =>
    rw [eq_append_of_dropFront? hrest, List.length_append]
    exact Nat.le_add_left _ _

theorem length_chars_le (t : Text) : t.chars.length ≤ t.length := by
  induction t using rune_induction with
  | nil => exact le_rfl
  | spelled c b tail rest h ih =>
    rw [chars, runes_spelled h, List.map_cons, List.length_cons, List.length_append, List.length_cons]
    rw [chars] at ih
    omega
  | stray b rest h ih =>
    rw [chars, runes_stray h, List.map_cons, List.length_cons, List.length_cons]
    exact Nat.succ_le_succ ih

/-- A text without white space is left alone. -/
theorem trimSpace_eq_self {t : Text} (h : ∀ b ∈ t, isBlankByte b = false) : t.trimSpace = t := by
  obtain ⟨front, back, ht, hfront, hback, -⟩ := t.exists_blanks
  have hnil {u : Text} (hu : IsBlank u) (hmem : ∀ b ∈ u, b ∈ t) : u = [] :=
    List.eq_nil_iff_forall_not_mem.2 fun b hb => hu.not_mem (h b (hmem b hb)) hb
  have hfront : front = [] := hnil hfront fun b hb => by
    rw [ht]
    exact List.mem_append_left _ hb
  have hback : back = [] := hnil hback fun b hb => by
    rw [ht]
    exact List.mem_append_right _ (List.mem_append_right _ hb)
  rw [hfront, hback, List.nil_append, List.append_nil] at ht
  exact ht.symm

end Text

/-! ## Globs -/

namespace Glob

/-- The expression of a glob in a list of them is not too large. -/
def Fits (source : Text) : Prop := size (Text.dropFront "./" source.trimSpace) ≤ Regex.Item.maxSize

theorem fits_of_length_le {source : Text} (h : source.length ≤ 1677720) : Fits source := by
  have hchars := Text.length_chars_le (Text.dropFront "./" source.trimSpace)
  have hdropped := Text.length_dropFront_le "./" source.trimSpace
  have htrimmed := source.length_trimSpace_le
  have hmax : Regex.Item.maxSize = 3355443 := rfl
  refine (size_le _).trans ?_
  omega

theorem exists_compile_of_fits {sources : List Text} (h : ∀ s ∈ sources, Fits s) :
    ∃ gs, compile sources = .ok gs := by
  have hall : ∃ gs, compile sources = .ok gs ∧
      List.Forall₂ (fun _ _ => True) ((sources.map Text.trimSpace).filter (!·.isEmpty)) gs := by
    refine exists_mapM_ok fun source hsource => ?_
    obtain ⟨s, hs, rfl⟩ := List.mem_map.1 (List.mem_of_mem_filter hsource)
    rw [Pattern.compile, read_expression_eq, if_neg (Nat.not_lt.2 (h s hs))]
    exact ⟨_, rfl, trivial⟩
  obtain ⟨gs, hgs, -⟩ := hall
  exact ⟨gs, hgs⟩

theorem compile_singleton_of_not_fits {source : Text} (hblank : source.trimSpace ≠ [])
    (h : ¬Fits source) : ∃ e, compile [source] = .error e := by
  have hsources : ([source].map Text.trimSpace).filter (!·.isEmpty) = [source.trimSpace] := by
    simp [hblank]
  rw [compile, hsources, List.mapM_cons, Pattern.compile, read_expression_eq, if_pos (Nat.not_le.1 h)]
  exact ⟨_, rfl⟩

end Glob

/-! ## What is made of a configuration -/

theorem Scanner.exists_ofGlobs {included excluded : List Text}
    (h : ∀ glob ∈ included ++ excluded, Glob.Fits glob) (l : Library) (w? : Option Whitelist) :
    ∃ sc, ofGlobs l w? included excluded = .ok sc := by
  obtain ⟨hincluded, hexcluded⟩ := List.forall_mem_append.1 h
  obtain ⟨gs, hgs⟩ := Glob.exists_compile_of_fits hincluded
  obtain ⟨gs', hgs'⟩ := Glob.exists_compile_of_fits hexcluded
  rw [ofGlobs, hgs, hgs']
  exact ⟨_, rfl⟩

theorem Notifier.ofEndpoints_of_accepted {webhooks slack : List Text}
    (h : ∀ a ∈ webhooks ++ slack, Endpoint.fault? a = none) :
    ofEndpoints webhooks slack =
      webhooks.map (Notifier.mk .webhook) ++ slack.map (Notifier.mk .slack) := by
  obtain ⟨hwebhooks, hslack⟩ := List.forall_mem_append.1 h
  have haccepts {as : List Text} (has : ∀ a ∈ as, Endpoint.fault? a = none) :
      as.filter Endpoint.accepts = as :=
    List.filter_eq_self.2 fun a ha => Option.isNone_iff_eq_none.2 (has a ha)
  rw [ofEndpoints_eq, haccepts hwebhooks, haccepts hslack]

namespace Config

variable {c : Config}

theorem endpointFault?_eq_none_iff {addresses : List Text} :
    endpointFault? addresses = none ↔ ∀ a ∈ addresses, Endpoint.fault? a = none := by
  simp [endpointFault?, List.findSome?_eq_none_iff]

/-- What the check of a configuration makes, later uses of it make, too. -/
theorem exists_of_fault? (h : c.fault? = none) :
    (∃ w, Whitelist.ofConfig c.whitelist = .ok w) ∧
      (∃ ps, Library.compileDeprecated c.deprecated = .ok ps) ∧
      ∀ a ∈ c.webhooks ++ c.slack, Endpoint.fault? a = none := by
  unfold fault? at h
  split_ifs at h
  split at h
  · cases h
  · cases h
  · next w ps hw hps => exact ⟨⟨w, hw⟩, ⟨ps, hps⟩, endpointFault?_eq_none_iff.1 h⟩

/-- Without a file of rules the library depends on no disk. -/
theorem exists_library {ps : List Pattern} (hrules : c.rulesFile = [])
    (hdeprecated : Library.compileDeprecated c.deprecated = .ok ps) :
    ∃ l, ∀ d, c.library d = .ok l := by
  have hmade : ∃ l, Library.builtin.withDeprecated c.deprecated = .ok l := by
    unfold Library.withDeprecated
    split_ifs
    · exact ⟨_, rfl⟩
    · rw [hdeprecated]
      exact ⟨_, rfl⟩
  obtain ⟨l, hl⟩ := hmade
  refine ⟨l, fun d => ?_⟩
  have hextended : c.extendedLibrary d = .ok Library.builtin := by
    rw [extendedLibrary, hrules, List.isEmpty_nil, if_pos rfl]
  simp only [library, hextended, bind, Except.bind, hl, pure, Except.pure]

theorem exists_load_of_any {d : Disk} {e : Environment} {path source : Text} {form : SettingsFile.Form}
    {f : Config → Bool} (hpath : path ≠ []) (hstat : (d.stat path).isOk = true)
    (hform : SettingsFile.endings.lookup ((Path.extension path).drop 1) = some form)
    (hcontent : d.contentOf path = .ok source)
    (h : ((SettingsFile.read e form source).toOption.bind fun settings =>
      Layers.config? ⟨e, settings⟩).any (fun c =>
        ({ c with file := path, missingFile := [] } : Config).fault?.isNone &&
          f { c with file := path, missingFile := [] }) = true) :
    ∃ c, load d e path = .ok c ∧ f c = true := by
  obtain ⟨c, hc, hsound⟩ := (Option.any_eq_true _ _).1 h
  obtain ⟨settings, hread, hconfig⟩ := Option.bind_eq_some_iff.1 hc
  rw [Bool.and_eq_true, Option.isNone_iff_eq_none] at hsound
  have hchosen : chooseFile d e path = .ok (path, []) := by
    unfold chooseFile
    rw [List.isEmpty_eq_false_iff.2 hpath, if_neg Bool.false_ne_true]
    cases hentry : d.stat path with
    | ok entry => rfl
    | error cause =>
      rw [hentry] at hstat
      cases hstat
  have hload : SettingsFile.load d e path = .ok settings := by
    simp only [SettingsFile.load, hform, hcontent]
    cases hsettings : SettingsFile.read e form source with
    | ok _ =>
      rw [hsettings] at hread
      cases hread
      rfl
    | error cause =>
      rw [hsettings] at hread
      cases hread
  refine ⟨_, ?_, hsound.2⟩
  simp only [load, hchosen, bind, Except.bind, List.isEmpty_eq_false_iff.2 hpath, hload, hconfig,
    hsound.1, pure, Except.pure]
  rfl

/-- What was loaded was accepted. -/
theorem fault?_of_load {d : Disk} {e : Environment} {path : Text} (h : load d e path = .ok c) :
    c.fault? = none := by
  unfold load at h
  simp only [bind, Except.bind, pure, Except.pure, throw, throwThe, MonadExceptOf.throw] at h
  -- Every way through ends in an error or behind the check.
  split at h
  · cases h
  · repeat' split at h
    all_goals cases h
    all_goals assumption

end Config

namespace Tool

open CommandLine (Options)

theorem fault?_of_loadConfig {s : Session} {o : Options} {q q' : Progress} {c : Config}
    (h : (loadConfig s o).after q = (.ok c, q')) : c.fault? = none := by
  unfold loadConfig at h
  obtain ⟨d, q₁, -, h⟩ := Job.exists_of_after_bind h
  obtain ⟨c₁, q₂, hload, h⟩ := Job.exists_of_after_bind h
  obtain rfl : { c₁ with verbose := c₁.verbose || o.isOn "verbose", debug := c₁.debug || o.isOn "debug" } = c := by
    cases h
    rfl
  have hfault : c₁.fault? = none := Config.fault?_of_load (Job.eq_ok_of_after_require hload)
  exact hfault

theorem exists_after_makeScanner {c : Config} {l : Library} {w : Whitelist}
    (hl : ∀ d, c.library d = .ok l) (hw : Whitelist.ofConfig c.whitelist = .ok w)
    (hfits : ∀ glob ∈ c.included ++ c.excluded, Glob.Fits glob) :
    ∃ sc, ∀ q, (makeScanner c).after q = (.ok sc, q) := by
  obtain ⟨sc, hsc⟩ := Scanner.exists_ofGlobs hfits l (some w)
  refine ⟨sc, fun q => ?_⟩
  unfold makeScanner
  rw [Job.after_bind_of_ok _ (Job.after_disk q),
    Job.after_bind_of_ok _ (Job.after_require q (hl q.disk)),
    Job.after_bind_of_ok _ (Job.after_require q hw), Job.after_require q hsc]

def settingsSource : Text :=
  "deprecated_patterns: [\"old[a-z]+\"]\nwebhook_urls: [\"https://h.example/hook\"]\n"

def settingsDisk : Disk := { root := .dir [("codespectre.yaml", .file settingsSource)] }

/-- A command line that names its settings. -/
def namedSettings : Options :=
  { flags := program.flags, given := [("config", .text "codespectre.yaml")] }

theorem exists_loadConfig_namedSettings (s : Session) (h : s.environment = {}) :
    ∃ c, (loadConfig s namedSettings).after { disk := settingsDisk } = (.ok c, { disk := settingsDisk }) ∧
      c.rulesFile = [] ∧ c.webhooks = [Text.ofString "https://h.example/hook"] ∧
      ∀ glob ∈ c.included ++ c.excluded, glob.length ≤ 1677720 := by
  obtain ⟨c, hload, hc⟩ := Config.exists_load_of_any (d := settingsDisk) (e := {})
    (f := fun c => c.rulesFile.isEmpty && c.webhooks == [Text.ofString "https://h.example/hook"] &&
      (c.included ++ c.excluded).all fun glob => glob.length ≤ 1677720)
    (by decide : Text.ofString "codespectre.yaml" ≠ []) (by cbv)
    (by decide : _ = some SettingsFile.Form.yaml)
    (by cbv : settingsDisk.contentOf "codespectre.yaml" = .ok settingsSource) (by decide +kernel)
  simp only [Bool.and_eq_true, List.isEmpty_iff, beq_iff_eq, List.all_eq_true, decide_eq_true_eq] at hc
  obtain ⟨⟨hrules, hwebhooks⟩, hglobs⟩ := hc
  refine ⟨{ c with
    verbose := c.verbose || namedSettings.isOn "verbose"
    debug := c.debug || namedSettings.isOn "debug" }, ?_, hrules, hwebhooks, hglobs⟩
  unfold loadConfig
  have hnamed : namedSettings.text "config" = "codespectre.yaml" := rfl
  rw [Job.after_bind_of_ok _ (Job.after_disk _), h, hnamed,
    Job.after_bind_of_ok _ (Job.after_require _ hload)]
  rfl

end Tool

/-! ### Settings that are accepted and do not work -/

namespace Glob

theorem partsOf_replicate_one (n : ℕ) :
    partsOf (List.replicate n '?') = List.replicate n .one := by
  induction n with
  | zero => rfl
  | succ n ih => rw [List.replicate_succ, partsOf, ih, List.replicate_succ]

theorem size_replicate_one (n : ℕ) : size (List.replicate n ('?' : UInt8)) = n + 2 := by
  have hsize : Part.one.item.size = 1 := rfl
  have hchars : Text.ofChars (List.replicate n '?') = List.replicate n ('?' : UInt8) :=
    Text.ofChars_replicate (by decide) n
  rw [size, parts, ← hchars, Text.chars_ofChars, partsOf_replicate_one,
    List.map_replicate, List.sum_replicate, hsize, smul_eq_mul, Nat.mul_one]

theorem trimSpace_replicate_one (n : ℕ) :
    Text.trimSpace (List.replicate n ('?' : UInt8)) = List.replicate n ('?' : UInt8) := by
  refine Text.trimSpace_eq_self fun b hb => ?_
  rw [List.eq_of_mem_replicate hb]
  decide

/-- Question marks, of which each is one step. -/
theorem fits_replicate_one_iff (n : ℕ) :
    Fits (List.replicate n ('?' : UInt8)) ↔ n + 2 ≤ Regex.Item.maxSize := by
  have hdrop : Text.dropFront "./" (List.replicate n ('?' : UInt8)) = List.replicate n ('?' : UInt8) := by
    cases n <;> rfl
  rw [Fits, trimSpace_replicate_one, hdrop, size_replicate_one]

end Glob

theorem Config.fault?_included {c : Config} {globs : List Text} (hglobs : globs ≠ []) (h : c.included ≠ []) :
    ({ c with included := globs } : Config).fault? = c.fault? := by
  simp [fault?, hglobs, h]

namespace Tool

/-- One question mark more than an expression may have. -/
def questions : Text := List.replicate 3355442 '?'

theorem questions_do_not_fit : ¬Glob.Fits questions := by
  rw [questions, Glob.fits_replicate_one_iff]
  decide

theorem ofGlobs_questions (l : Library) (w? : Option Whitelist) (excluded : List Text) :
    ∃ e, Scanner.ofGlobs l w? [questions] excluded = .error e := by
  have hblank : questions.trimSpace ≠ [] := by
    rw [questions, Glob.trimSpace_replicate_one]
    exact List.cons_ne_nil _ _
  obtain ⟨e, he⟩ := Glob.compile_singleton_of_not_fits hblank questions_do_not_fit
  rw [Scanner.ofGlobs, he]
  exact ⟨_, rfl⟩

end Tool

end LiteralAudit
