import LiteralAudit.Proofs.Format.Xml
import LiteralAudit.Proofs.Report.Recommendations

/-!
# Test results that are read back

What is written of a report as test results stands for a tree that depends on the report only
(`Junit.document`, `Junit.isDocument_report`). A reader gets one suite from it, with one test case for each
file with issues (`Junit.suites?_report`), and the tags of the tree are the same for all reports with as many
such cases (`Junit.shapes_document`), whatever the texts in them are.
-/

namespace LiteralAudit

namespace Report

/-- The names of a list without repetitions, behind those that were seen before. -/
theorem foldl_seen_eq (names seen : List Text) :
    (names.foldl (fun seen n => if seen.contains n then seen else n :: seen) seen).reverse =
      seen.reverse ++ (names.filter fun n => !seen.contains n).eraseDups := by
  induction names generalizing seen with
  | nil => simp
  | cons name names ih =>
    rw [List.foldl_cons]
    cases hseen : seen.contains name with
    | true =>
      rw [if_pos rfl, ih, List.filter_cons, hseen]
      rfl
    | false =>
      rw [if_neg Bool.false_ne_true, ih, List.filter_cons, hseen, Bool.not_false, if_pos rfl,
        List.eraseDups_cons, List.filter_filter, List.reverse_cons, List.append_assoc, List.singleton_append]
      congr 4
      ext n
      rw [List.contains_cons, Bool.not_or]

theorem firstSeen_eq_eraseDups (names : List Text) : firstSeen names = names.eraseDups := by
  rw [firstSeen, foldl_seen_eq]
  simp

end Report

/-- The issues of files without repetitions are all issues of these files, each once. -/
theorem perm_flatMap_filter {issues : List Issue} {files : List Text} (hnodup : files.Nodup)
    (h : ∀ i ∈ issues, i.file ∈ files) :
    (files.flatMap fun file => issues.filter (·.file == file)).Perm issues := by
  induction files generalizing issues with
  | nil =>
    rw [List.eq_nil_iff_forall_not_mem.2 fun i hi => List.not_mem_nil (h i hi)]
    exact .nil
  | cons file files ih =>
    obtain ⟨hfile, hnodup⟩ := List.nodup_cons.1 hnodup
    -- The issues of the other files are among those that are not of this one.
    have hrest : files.flatMap (fun other => issues.filter (·.file == other)) =
        files.flatMap fun other => (issues.filter fun i => !(i.file == file)).filter (·.file == other) := by
      refine List.flatMap_congr fun other hother => ?_
      rw [List.filter_filter]
      refine List.filter_congr fun i _ => ?_
      by_cases heq : i.file = other
      · have hne : i.file ≠ file := by
          rintro rfl
          exact hfile (heq ▸ hother)
        simp [heq, heq ▸ hne]
      · simp [heq]
    rw [List.flatMap_cons, hrest]
    refine ((ih hnodup ?_).append_left _).trans (List.filter_append_perm _ _)
    intro i hi
    obtain ⟨hi, hne⟩ := List.mem_filter.1 hi
    refine (List.mem_cons.1 (h i hi)).resolve_left ?_
    simpa using hne

namespace Format

/-! ## What a reader of test results gets -/

namespace Xml.Node

/-- Whether a node is an element of a name. -/
def isNamed (name : String) : Node → Bool
  | .char _ => false
  | .element m _ _ => m == name.toList

/-- The elements of a name in an element. -/
def named (n : Node) (name : String) : List Node :=
  match n with
  | .char _ => []
  | .element _ _ content => content.filter (isNamed name)

def attribute? (n : Node) (name : String) : Option (List Char) :=
  match n with
  | .char _ => none
  | .element _ attributes _ => attributes.lookup name.toList

/-- The characters in an element, but for those in elements within it. -/
def text (n : Node) : List Char :=
  match n with
  | .char _ => []
  | .element _ _ content => content.filterMap fun
    | .char c => some c
    | .element _ _ _ => none

end Xml.Node

/-- A tag without the texts in it: with its name and those of its attributes. -/
inductive Xml.Shape where
  | start (name : List Char) (attributeNames : List (List Char))
  | stop (name : List Char)

def Xml.Token.shape? : Xml.Token → Option Xml.Shape
  | .char _ => none
  | .start name attributes => some (.start name (attributes.map (·.1)))
  | .stop name => some (.stop name)

/-- The tags of an element and of what is in it, in order. -/
def Xml.Node.shapes (n : Xml.Node) : List Xml.Shape := n.tokens.filterMap Xml.Token.shape?

namespace Junit

/-- Why a test case fails, as an attribute and as a text. -/
structure Failure where
  message : List Char
  body : List Char
  deriving DecidableEq

structure Case where
  name : List Char
  /-- None when the case passes. -/
  failures : List Failure
  deriving DecidableEq

structure Suite where
  tests : Nat
  failures : Nat
  cases : List Case

def Failure.ofNode? (n : Xml.Node) : Option Failure := do
  return ⟨← n.attribute? "message", n.text⟩

def Case.ofNode? (n : Xml.Node) : Option Case := do
  return ⟨← n.attribute? "name", ← (n.named "failure").mapM Failure.ofNode?⟩

def Suite.ofNode? (n : Xml.Node) : Option Suite := do
  let tests ← (n.attribute? "tests").bind (Xml.number? 10)
  let failures ← (n.attribute? "failures").bind (Xml.number? 10)
  return ⟨tests, failures, ← (n.named "testcase").mapM Case.ofNode?⟩

/-- The suites in the document that a text is. -/
def suites? (t : Text) : Option (List Suite) :=
  (Xml.read? t).bind fun root => (root.named "testsuite").mapM Suite.ofNode?

/-! ## The document of a report -/

open Xml (Node carried carriedAttributes tokensOf Writes SpellsToken)

/-- Characters between tags. -/
def space (s : String) : List Node := s.toList.map .char

/-- A node on a line of its own. -/
def onLine (indent : String) (n : Node) : List Node := space indent ++ [n] ++ space "\n"

def failureNode (message : Text) : Node :=
  .element "failure".toList (carriedAttributes [("message", message), ("type", "ValidationFailure")])
    ((carried message).map .char)

def failingNode (r : Report) (file : Text) : Node :=
  .element "testcase".toList (carriedAttributes [("name", file), ("classname", "codespectre.files")])
    (space "\n" ++ onLine "      " (failureNode (failureText (r.issues.filter (·.file == file)))) ++
      space "    ")

def passingNode (n : Int) : Node :=
  .element "testcase".toList (carriedAttributes [("name", Text.ofInt n ++ " files passed validation"),
    ("classname", "codespectre.files")]) []

def propertyNode (name : String) (value : Text) : Node :=
  .element "property".toList (carriedAttributes [("name", name), ("value", value)]) []

def propertiesNode (r : Report) : Node :=
  .element "properties".toList (carriedAttributes []) (space "\n" ++
    onLine "      " (propertyNode "validation_score" (Number.fixedPlaces 2 r.score)) ++
    onLine "      " (propertyNode "critical_issues" (Text.ofInt (r.count .critical))) ++
    onLine "      " (propertyNode "high_issues" (Text.ofInt (r.count .high))) ++ space "    ")

/-- How many files have no issues, as it is counted. -/
def clean (r : Report) : Int := Number.wrap64 (r.files - r.filesWithIssues.length)

def suiteAttributes (r : Report) : List (String × Text) :=
  [("name", "codespectre.validation"),
    ("tests", Text.ofNat (r.filesWithIssues.length + if clean r > 0 then 1 else 0)),
    ("failures", Text.ofNat r.filesWithIssues.length), ("errors", "0"),
    ("time", Number.fixedPlaces 3 r.seconds), ("timestamp", r.timestamp.utc.rfc3339 false)]

def suiteNode (r : Report) : Node :=
  .element "testsuite".toList (carriedAttributes (suiteAttributes r)) (space "\n" ++
    onLine "    " (propertiesNode r) ++
    (r.filesWithIssues.flatMap fun file => onLine "    " (failingNode r file)) ++
    (if clean r > 0 then onLine "    " (passingNode (clean r)) else []) ++ space "  ")

/-- The tree that a report is written as. -/
def document (r : Report) : Node :=
  .element "testsuites".toList (carriedAttributes []) (space "\n" ++ onLine "  " (suiteNode r))

/-! ## What is written stands for the document -/

/-- What is written on a line of its own. -/
def lineOf (indent : String) (t : Text) : Text := Text.ofString indent ++ t ++ "\n"

theorem writes_space {s : String} (h : s.toList.all Xml.isSpace = true) :
    Writes SpellsToken (Text.ofString s) (tokensOf (space s)) := by
  rw [space, Xml.tokensOf_chars]
  exact Xml.writes_space h

theorem writes_onLine {indent : String} (h : indent.toList.all Xml.isSpace = true) {t : Text} {n : Node}
    (ht : Writes SpellsToken t n.tokens) :
    Writes SpellsToken (lineOf indent t) (tokensOf (onLine indent n)) := by
  rw [onLine, Xml.tokensOf_append, Xml.tokensOf_append, tokensOf, tokensOf, List.append_nil]
  exact ((writes_space h).append ht).append (writes_space (by decide))

theorem failing_eq (r : Report) (file : Text) : failing r file =
    lineOf "    " (Xml.element "testcase" [("name", file), ("classname", "codespectre.files")]
      ("\n" ++ lineOf "      " (Xml.leaf "failure"
        [("message", failureText (r.issues.filter (·.file == file))), ("type", "ValidationFailure")]
        (failureText (r.issues.filter (·.file == file)))) ++ "    ")) := by
  have hopen : Text.ofString "    <testcase" = "    " ++ Text.ofString "<" ++ Text.ofString "testcase" := by
    decide
  have hclose : Text.ofString "\n    </testcase>\n" =
      "\n" ++ Text.ofString "    " ++ "</" ++ Text.ofString "testcase" ++ ">" ++ Text.ofString "\n" := by
    decide
  have hend : Text.ofString ">\n" = Text.ofString ">" ++ Text.ofString "\n" := by decide
  simp only [failing, lineOf, Xml.element, hopen, hclose, hend, List.append_assoc]

theorem passing_eq (n : Int) : passing n = lineOf "    " (Xml.leaf "testcase"
    [("name", Text.ofInt n ++ " files passed validation"), ("classname", "codespectre.files")] []) := rfl

theorem property_eq (name : String) (value : Text) : property name value =
    lineOf "      " (Xml.leaf "property" [("name", name), ("value", value)] []) := rfl

/-- What is written between the start of a suite and its test cases. -/
def properties (r : Report) : Text :=
  Xml.element "properties" [] ("\n" ++ property "validation_score" (Number.fixedPlaces 2 r.score) ++
    property "critical_issues" (Text.ofInt (r.count .critical)) ++
    property "high_issues" (Text.ofInt (r.count .high)) ++ "    ")

/-- What is written as the suite. -/
def suite (r : Report) : Text :=
  Xml.element "testsuite" (suiteAttributes r) ("\n" ++ lineOf "    " (properties r) ++
    r.filesWithIssues.flatMap (failing r) ++ (if clean r > 0 then passing (clean r) else []) ++ "  ")

theorem report_eq (r : Report) : report r =
    "<?xml version=\"1.0\" encoding=\"UTF-8\"?>" ++ Text.ofString "\n" ++
      (Xml.element "testsuites" [] ("\n" ++ lineOf "  " (suite r))) ++ "\n" := by
  -- What is written as one text may end one tag and begin another.
  have hhead : Text.ofString "<?xml version=\"1.0\" encoding=\"UTF-8\"?>\n<testsuites>\n" =
      "<?xml version=\"1.0\" encoding=\"UTF-8\"?>" ++ Text.ofString "\n" ++ "<" ++
        Text.ofString "testsuites" ++ ">" ++ Text.ofString "\n" := by decide
  have hsuite : Text.ofString "  <testsuite" = "  " ++ Text.ofString "<" ++ Text.ofString "testsuite" := by
    decide
  have hend : Text.ofString ">\n" = Text.ofString ">" ++ Text.ofString "\n" := by decide
  have hproperties : Text.ofString "    <properties>\n" =
      "    " ++ Text.ofString "<" ++ Text.ofString "properties" ++ ">" ++ Text.ofString "\n" := by decide
  have hbehind : Text.ofString "    </properties>\n" =
      "    " ++ Text.ofString "</" ++ Text.ofString "properties" ++ ">" ++ Text.ofString "\n" := by decide
  have htail : Text.ofString "  </testsuite>\n</testsuites>\n" =
      "  " ++ Text.ofString "</" ++ Text.ofString "testsuite" ++ ">" ++ Text.ofString "\n" ++ "</" ++
        Text.ofString "testsuites" ++ ">" ++ Text.ofString "\n" := by decide
  have hnone : Xml.attributes [] = [] := rfl
  simp only [report, suite, properties, clean, suiteAttributes, lineOf, Xml.element, hhead, hsuite, hend,
    hproperties, hbehind, htail, hnone, List.append_assoc, List.nil_append]
  rfl

theorem writes_failing (r : Report) (file : Text) :
    Writes SpellsToken (failing r file) (tokensOf (onLine "    " (failingNode r file))) := by
  have hcase : Xml.isTag "testcase" ["name", "classname"] = true := by decide
  have hfailure : Xml.isTag "failure" ["message", "type"] = true := by decide
  rw [failing_eq]
  refine writes_onLine (by decide) (Xml.writes_element hcase ?_)
  rw [Xml.tokensOf_append, Xml.tokensOf_append]
  exact ((writes_space (by decide)).append (writes_onLine (by decide) (Xml.writes_leaf hfailure _))).append
    (writes_space (by decide))

theorem writes_passing (n : Int) :
    Writes SpellsToken (passing n) (tokensOf (onLine "    " (passingNode n))) := by
  have hcase : Xml.isTag "testcase" ["name", "classname"] = true := by decide
  rw [passing_eq]
  exact writes_onLine (by decide) (Xml.writes_leaf hcase [])

theorem writes_property (name : String) (value : Text) :
    Writes SpellsToken (property name value) (tokensOf (onLine "      " (propertyNode name value))) := by
  have hproperty : Xml.isTag "property" ["name", "value"] = true := by decide
  rw [property_eq]
  exact writes_onLine (by decide) (Xml.writes_leaf hproperty [])

theorem writes_suite (r : Report) : Writes SpellsToken (suite r) (suiteNode r).tokens := by
  have hsuite :
      Xml.isTag "testsuite" ["name", "tests", "failures", "errors", "time", "timestamp"] = true := by decide
  have hproperties : Xml.isTag "properties" [] = true := by decide
  refine Xml.writes_element hsuite ?_
  simp only [Xml.tokensOf_append, Xml.tokensOf_flatMap]
  have hlines : Writes SpellsToken (properties r) (propertiesNode r).tokens := by
    refine Xml.writes_element hproperties ?_
    simp only [Xml.tokensOf_append]
    exact ((((writes_space (by decide)).append (writes_property _ _)).append (writes_property _ _)).append
      (writes_property _ _)).append (writes_space (by decide))
  have hclean : Writes SpellsToken (if clean r > 0 then passing (clean r) else [])
      (tokensOf (if clean r > 0 then onLine "    " (passingNode (clean r)) else [])) := by
    split_ifs
    · exact writes_passing _
    · exact ⟨[], rfl, .nil⟩
  exact ((((writes_space (by decide)).append (writes_onLine (by decide) hlines)).append
    (.flatMap fun file _ => writes_failing r file)).append hclean).append (writes_space (by decide))

theorem isDocument_report (r : Report) : Xml.IsDocument (report r) (document r) := by
  have hsuites : Xml.isTag "testsuites" [] = true := by decide
  obtain ⟨w, hw, hspells⟩ : Writes SpellsToken (Xml.element "testsuites" [] ("\n" ++ lineOf "  " (suite r)))
      (document r).tokens := by
    refine Xml.writes_element hsuites ?_
    rw [Xml.tokensOf_append]
    exact (writes_space (by decide)).append (writes_onLine (by decide) (writes_suite r))
  refine ⟨['\n'], w, ['\n'], _, _, _, ?_, by simp [Xml.isSpace], by simp [Xml.isSpace], rfl, hspells⟩
  have hhead : Text.ofString "<?xml version=\"1.0\" encoding=\"UTF-8\"?>" ++ Text.ofString "\n" =
      Text.ofChars (Xml.declaration ++ ['\n']) := by decide
  have htail : Text.ofString "\n" = Text.ofChars ['\n'] := by decide
  rw [report_eq, hhead, hw, htail, ← Text.ofChars_append, ← Text.ofChars_append, List.append_assoc,
    List.append_assoc, List.append_assoc]

/-! ## What is read of it -/

section Read

variable {name : String}

theorem filter_space (s : String) : (space s).filter (Node.isNamed name) = [] := by
  simp [space, Node.isNamed]

theorem filter_onLine (indent : String) (n : Node) :
    (onLine indent n).filter (Node.isNamed name) = [n].filter (Node.isNamed name) := by
  rw [onLine, List.filter_append, List.filter_append, filter_space, filter_space, List.nil_append,
    List.append_nil]

theorem attribute?_element (name : List Char) (as : List (String × Text)) (content : List Node)
    (key : String) : (Node.element name (carriedAttributes as) content).attribute? key =
      (as.lookup key).map carried := by
  show (carriedAttributes as).lookup key.toList = _
  induction as with
  | nil => rfl
  | cons a as ih =>
    have hkey : (key.toList == a.1.toList) = (key == a.1) := by
      rw [Bool.eq_iff_iff, beq_iff_eq, beq_iff_eq, String.toList_inj]
    rw [carriedAttributes, List.map_cons, List.lookup_cons, List.lookup_cons, hkey]
    split
    · rfl
    · exact ih

theorem text_element (name : List Char) (attributes : Xml.Attributes) (cs : List Char) :
    (Node.element name attributes (cs.map .char)).text = cs := by
  simp [Node.text, List.filterMap_map]

end Read

theorem carried_ofNat (n : Nat) : carried (Text.ofNat n) = Nat.toDigits 10 n := by
  rw [Json.ofNat_eq_ofChars, carried, Text.chars_ofChars]
  refine (List.map_congr_left fun c hc => ?_).trans (List.map_id _)
  have hdigit : c.isDigit = true := Nat.isDigit_of_mem_toDigits (by decide) (by decide) hc
  have hallowed : Xml.isAllowed c = true := by
    obtain ⟨hge, hle⟩ : 48 ≤ c.toNat ∧ c.toNat ≤ 57 := by
      rw [Char.isDigit, Bool.and_eq_true, decide_eq_true_eq, decide_eq_true_eq] at hdigit
      exact hdigit
    simp only [Xml.isAllowed, Bool.or_eq_true, Bool.and_eq_true, decide_eq_true_eq]
    omega
  rw [Xml.carriedChar, if_pos hallowed, id]

theorem number?_ofNat (n : Nat) : Xml.number? 10 (carried (Text.ofNat n)) = some n := by
  have hread : Number.readDigits? 10 (Text.ofNat n) = some n := Number.readDigits?_ofNat 0 n
  rw [carried_ofNat, Xml.number?, if_neg (by simp [Nat.toDigits_ne_nil]), ← Json.ofNat_eq_ofChars, hread]

/-- The test case of a file with issues: what is wrong with it is the reason that it fails. -/
def failingCase (r : Report) (file : Text) : Case :=
  let message := carried (failureText (r.issues.filter (·.file == file)))
  ⟨carried file, [⟨message, message⟩]⟩

/-- The test case of files without issues. -/
def passingCase (n : Int) : Case := ⟨carried (Text.ofInt n ++ " files passed validation"), []⟩

theorem ofNode?_failure (message : Text) :
    Failure.ofNode? (failureNode message) = some ⟨carried message, carried message⟩ := by
  rw [Failure.ofNode?, failureNode, attribute?_element, text_element]
  rfl

theorem ofNode?_failing (r : Report) (file : Text) :
    Case.ofNode? (failingNode r file) = some (failingCase r file) := by
  have hfailures : (failingNode r file).named "failure" =
      [failureNode (failureText (r.issues.filter (·.file == file)))] := by
    rw [failingNode, Node.named, List.filter_append, List.filter_append, filter_space, filter_onLine,
      filter_space]
    rfl
  rw [Case.ofNode?, hfailures, List.mapM_cons, ofNode?_failure, failingNode, attribute?_element]
  rfl

theorem ofNode?_passing (n : Int) : Case.ofNode? (passingNode n) = some (passingCase n) := by
  rw [Case.ofNode?, passingNode, attribute?_element]
  rfl

/-- The test cases of a report. -/
def cases (r : Report) : List Case :=
  r.filesWithIssues.map (failingCase r) ++ if clean r > 0 then [passingCase (clean r)] else []

theorem named_testcase (r : Report) : (suiteNode r).named "testcase" =
    r.filesWithIssues.map (failingNode r) ++ if clean r > 0 then [passingNode (clean r)] else [] := by
  have hfailing (file : Text) :
      (onLine "    " (failingNode r file)).filter (Node.isNamed "testcase") = [failingNode r file] := by
    rw [filter_onLine]
    rfl
  have hpassing : (if clean r > 0 then onLine "    " (passingNode (clean r)) else []).filter
      (Node.isNamed "testcase") = if clean r > 0 then [passingNode (clean r)] else [] := by
    split_ifs
    · rw [filter_onLine]
      rfl
    · rfl
  have hproperties : [propertiesNode r].filter (Node.isNamed "testcase") = [] := rfl
  simp only [suiteNode, Node.named, List.filter_append, filter_space, filter_onLine, hproperties,
    List.filter_flatMap, hfailing, hpassing, List.map_eq_flatMap, List.nil_append, List.append_nil]

theorem mapM_testcase (r : Report) :
    ((suiteNode r).named "testcase").mapM Case.ofNode? = some (cases r) := by
  have hfailing : Case.ofNode? ∘ failingNode r = fun file => pure (failingCase r file) :=
    funext (ofNode?_failing r)
  have hpassing : (if clean r > 0 then [passingNode (clean r)] else []).mapM Case.ofNode? =
      some (if clean r > 0 then [passingCase (clean r)] else []) := by
    split_ifs
    · rw [List.mapM_cons, ofNode?_passing]
      rfl
    · rfl
  rw [named_testcase, List.mapM_append, List.mapM_map, hfailing, List.mapM_pure, hpassing]
  rfl

/-- What the results of a report are read as. -/
def suiteOf (r : Report) : Suite where
  tests := r.filesWithIssues.length + if clean r > 0 then 1 else 0
  failures := r.filesWithIssues.length
  cases := cases r

theorem ofNode?_suite (r : Report) : Suite.ofNode? (suiteNode r) = some (suiteOf r) := by
  have htests : ((suiteNode r).attribute? "tests").bind (Xml.number? 10) =
      some (r.filesWithIssues.length + if clean r > 0 then 1 else 0) := by
    rw [suiteNode, attribute?_element]
    exact number?_ofNat _
  have hfailures : ((suiteNode r).attribute? "failures").bind (Xml.number? 10) =
      some r.filesWithIssues.length := by
    rw [suiteNode, attribute?_element]
    exact number?_ofNat _
  rw [Suite.ofNode?, htests, hfailures, mapM_testcase]
  rfl

theorem suites?_report (r : Report) : suites? (report r) = some [suiteOf r] := by
  have hsuites : (document r).named "testsuite" = [suiteNode r] := by
    rw [document, Node.named, List.filter_append, filter_space, filter_onLine]
    rfl
  rw [suites?, Xml.read?_of_isDocument (isDocument_report r), Option.bind_some, hsuites, List.mapM_cons,
    ofNode?_suite]
  rfl

theorem tests_suiteOf (r : Report) : (suiteOf r).tests = (suiteOf r).cases.length := by
  rw [suiteOf, cases, List.length_append, List.length_map]
  split_ifs <;> rfl

theorem failures_suiteOf (r : Report) :
    (suiteOf r).failures = ((suiteOf r).cases.filter fun c => !c.failures.isEmpty).length := by
  have hpassing : (if clean r > 0 then [passingCase (clean r)] else []).filter
      (fun c => !c.failures.isEmpty) = [] := by
    split_ifs <;> rfl
  have hfailing : (r.filesWithIssues.map (failingCase r)).filter (fun c => !c.failures.isEmpty) =
      r.filesWithIssues.map (failingCase r) := by
    rw [List.filter_eq_self]
    rintro c hc
    obtain ⟨file, -, rfl⟩ := List.mem_map.1 hc
    rfl
  rw [suiteOf, cases, List.filter_append, hpassing, hfailing, List.append_nil, List.length_map]

theorem clean_eq {r : Report} (hge : Number.minInt64 + r.filesWithIssues.length ≤ r.files)
    (hle : r.files ≤ Number.maxInt64) : clean r = r.files - r.filesWithIssues.length := by
  rw [Number.minInt64] at hge
  rw [Number.maxInt64] at hle
  exact Int.bmod_eq_of_le (by omega) (by omega)

/-! ## Tags do not depend on texts -/

section Shapes

open Xml (Shape)

/-- The tags of an element around others. -/
def elementShapes (name : String) (attributeNames : List String) (inner : List Shape) : List Shape :=
  .start name.toList (attributeNames.map String.toList) :: (inner ++ [.stop name.toList])

/-- The tags of the test case of a file with issues. -/
def failingShapes : List Shape :=
  elementShapes "testcase" ["name", "classname"] (elementShapes "failure" ["message", "type"] [])

/-- The tags of a document with so many test cases that fail, and maybe one that passes. -/
def shapes (failing : Nat) (passes : Prop) [Decidable passes] : List Shape :=
  elementShapes "testsuites" []
    (elementShapes "testsuite" ["name", "tests", "failures", "errors", "time", "timestamp"]
      (elementShapes "properties" []
          (List.replicate 3 (elementShapes "property" ["name", "value"] [])).flatten ++
        (List.replicate failing failingShapes).flatten ++
        if passes then elementShapes "testcase" ["name", "classname"] [] else []))

def shapesOf (ns : List Node) : List Shape := (tokensOf ns).filterMap Xml.Token.shape?

theorem shapesOf_append (ns ms : List Node) : shapesOf (ns ++ ms) = shapesOf ns ++ shapesOf ms := by
  rw [shapesOf, Xml.tokensOf_append, List.filterMap_append]
  rfl

theorem shapesOf_flatMap {α : Type} (l : List α) (f : α → List Node) :
    shapesOf (l.flatMap f) = l.flatMap fun a => shapesOf (f a) := by
  rw [shapesOf, Xml.tokensOf_flatMap, List.filterMap_flatMap]
  rfl

theorem shapesOf_chars (cs : List Char) : shapesOf (cs.map .char) = [] := by
  rw [shapesOf, Xml.tokensOf_chars, List.filterMap_map]
  exact List.filterMap_eq_nil_iff.2 fun _ _ => rfl

theorem shapesOf_space (s : String) : shapesOf (space s) = [] := shapesOf_chars s.toList

theorem shapesOf_onLine (indent : String) (n : Node) : shapesOf (onLine indent n) = n.shapes := by
  have hone : shapesOf [n] = n.shapes := by
    rw [shapesOf, tokensOf, tokensOf, List.append_nil]
    rfl
  rw [onLine, shapesOf_append, shapesOf_append, shapesOf_space, shapesOf_space, hone, List.nil_append,
    List.append_nil]

theorem shapes_element (name : String) (as : List (String × Text)) (content : List Node) :
    (Node.element name.toList (carriedAttributes as) content).shapes =
      elementShapes name (as.map (·.1)) (shapesOf content) := by
  rw [Node.shapes, Node.tokens, List.filterMap_cons]
  simp [Xml.Token.shape?, elementShapes, shapesOf, carriedAttributes]

theorem shapes_failing (r : Report) (file : Text) : (failingNode r file).shapes = failingShapes := by
  simp only [failingNode, failureNode, shapes_element, shapesOf_append, shapesOf_onLine, shapesOf_space,
    shapesOf_chars, List.nil_append, List.append_nil]
  rfl

theorem shapes_properties (r : Report) : (propertiesNode r).shapes = elementShapes "properties" []
    (List.replicate 3 (elementShapes "property" ["name", "value"] [])).flatten := by
  have hnone : shapesOf [] = [] := rfl
  simp only [propertiesNode, propertyNode, shapes_element, shapesOf_append, shapesOf_onLine, shapesOf_space,
    hnone, List.nil_append, List.append_nil]
  rfl

theorem shapes_document (r : Report) :
    (document r).shapes = shapes r.filesWithIssues.length (clean r > 0) := by
  have hpassing : shapesOf (if clean r > 0 then onLine "    " (passingNode (clean r)) else []) =
      if clean r > 0 then elementShapes "testcase" ["name", "classname"] [] else [] := by
    split_ifs
    · rw [shapesOf_onLine, passingNode, shapes_element]
      rfl
    · rfl
  have hfailing : (r.filesWithIssues.flatMap fun file => (failingNode r file).shapes) =
      (List.replicate r.filesWithIssues.length failingShapes).flatten := by
    simp only [shapes_failing, ← List.map_const', List.flatMap_def]
  simp only [document, suiteNode, shapes_element, shapesOf_append, shapesOf_flatMap, shapesOf_onLine,
    shapesOf_space, shapes_properties, hpassing, hfailing, List.nil_append, List.append_nil]
  rfl

end Shapes

end Junit

/-- What is written of a report as test results is a well-formed document and says which issues there are
where: there is one suite with a test case for each file with issues, the files in the order of their first
issues, and then one that passes, if files are left when they are counted in 64 bits. -/
theorem write_junit_partitions_issues (format : Text)
    (h : Text.toLower format = "junit" ∨ Text.toLower format = "xml") (r : Report) :
    ∃ t root suite, write format r = .ok t ∧
      Xml.IsDocument t root ∧ (∀ other, Xml.IsDocument t other → other = root) ∧
      Junit.suites? t = some [suite] ∧
      r.filesWithIssues = (r.issues.map (·.file)).eraseDups ∧
      suite.cases = r.filesWithIssues.map (Junit.failingCase r) ++
        (if Junit.clean r > 0 then [Junit.passingCase (Junit.clean r)] else []) ∧
      (Number.minInt64 + r.filesWithIssues.length ≤ r.files → r.files ≤ Number.maxInt64 →
        Junit.clean r = r.files - r.filesWithIssues.length) ∧
      suite.failures = (suite.cases.filter fun c => !c.failures.isEmpty).length ∧
      suite.tests = suite.cases.length ∧
      (r.filesWithIssues.flatMap fun file => r.issues.filter (·.file == file)).Perm r.issues ∧
      root.shapes = Junit.shapes r.filesWithIssues.length (Junit.clean r > 0) := by
  have hdocument := Junit.isDocument_report r
  refine ⟨Junit.report r, Junit.document r, Junit.suiteOf r, ?_, hdocument, fun _ => hdocument.unique,
    Junit.suites?_report r, Report.firstSeen_eq_eraseDups _, rfl, ?_, Junit.failures_suiteOf r,
    Junit.tests_suiteOf r, ?_, Junit.shapes_document r⟩
  · obtain h | h := h <;> rw [write, h] <;> rfl
  · intro hge hle
    exact Junit.clean_eq hge hle
  · exact perm_flatMap_filter (Report.nodup_firstSeen _) fun i hi =>
      Report.mem_firstSeen.2 (List.mem_map_of_mem hi)

/-- Issues of two files in turn, with a text that would end a tag. -/
def interleaved : Report where
  files := 5
  issues? := some [
    { file := "b\".py", line := 3, kind := "k", severity := .high, description := "x</failure>" },
    { file := "a.py", line := 1, kind := "k", severity := .low, description := "y\x00" },
    { file := "b\".py", line := 9, kind := "k", severity := .low, description := "z" }]

theorem interleaved_partitioned : ∃ t suite, write "XML" interleaved = .ok t ∧
    Junit.suites? t = some [suite] ∧ suite.cases =
      [⟨"b\".py".toList, [⟨"Line 3: [HIGH] k - x</failure>\nLine 9: [LOW] k - z".toList,
        "Line 3: [HIGH] k - x</failure>\nLine 9: [LOW] k - z".toList⟩]⟩,
      ⟨"a.py".toList, [⟨"Line 1: [LOW] k - y\uFFFD".toList, "Line 1: [LOW] k - y\uFFFD".toList⟩]⟩,
      ⟨"3 files passed validation".toList, []⟩] ∧
    suite.failures = 2 ∧ suite.tests = 3 := by
  obtain ⟨t, root, suite, hwrite, -, -, hread, -, hcases, hclean, hfailures, htests, -, -⟩ :=
    write_junit_partitions_issues "XML" (by decide) interleaved
  have hleft : Junit.clean interleaved = 3 := (hclean (by decide) (by decide)).trans (by decide)
  rw [hleft] at hcases
  refine ⟨t, suite, hwrite, hread, ?_, ?_, ?_⟩
  · rw [hcases]
    decide
  · rw [hfailures, hcases]
    decide
  · rw [htests, hcases]
    decide

/-- A count of files from which one cannot be taken away in 64 bits. -/
def fewest : Report where
  files := Number.minInt64
  issues? := some [
    { file := "a.py", line := 1, kind := "k", severity := .low, description := "d", pattern := "p" }]

/-- A case that passes is not always one for files that are left. -/
theorem passing_case_without_files_left : ¬ ∀ r : Report, Number.fits64 r.files = true →
    ∃ suite, Junit.suites? (Junit.report r) = some [suite] ∧
      ((∃ c ∈ suite.cases, c.failures = []) ↔ (r.filesWithIssues.length : Int) < r.files) := by
  intro h
  obtain ⟨suite, hread, hiff⟩ := h fewest (by decide)
  rw [Junit.suites?_report, Option.some_inj, List.singleton_inj] at hread
  subst hread
  have hless : ¬ (fewest.filesWithIssues.length : Int) < fewest.files := by decide
  exact hless (hiff.1 ⟨Junit.passingCase (Junit.clean fewest), by decide, rfl⟩)

end Format

end LiteralAudit
