/-
# The known actions are a set

Of the list of known actions the check asks two things: whether it is empty, and whether an action
is in it.  All that it decides is which findings about unknown actions are made.

So the findings can be listed without it.  `openFindings` are those that would be made if no action
were known, and a list of known actions keeps some of them, in their order (`findings_eq_filter`).
Two lists of known actions keep the same, or one of them keeps fewer, as `Finding.isKept` says of
each finding alone (`filter_checkScript_eq`); an empty list is the one that keeps nothing about
actions that are not known.
-/
import DialogueScript.Proofs.Check

namespace DialogueScript

/-! ### Findings without a list -/

/-- What would be found about a line if no action were known. -/
def openFindings (line : Line) : List Finding :=
  match line.parse? with
  | none => []
  | some (.error e) => [.malformed line.number e]
  | some (.ok parsed) =>
    (if parsed.action = "" then .emptyAction line.number line.text
      else .unknownAction line.number parsed.action)
      :: checkParameters line.number line.text parsed.parameters

/-- Whether a list of known actions keeps a finding.  It matters only for one about an unknown
action, which an empty list does not keep. -/
def Finding.isKept (known : List String) : Finding → Bool
  | .unknownAction _ action => known ≠ [] ∧ action ∉ known
  | _ => true

theorem filter_isKept_checkParameters (known : List String) (number : Nat) (raw : String)
    (parameters : List String) :
    (checkParameters number raw parameters).filter (Finding.isKept known)
      = checkParameters number raw parameters := by
  rw [List.filter_eq_self]
  intro finding hmem
  obtain ⟨place, rfl⟩ := eq_emptyParameter_of_mem hmem
  rfl

theorem checkLine_eq_filter (known : List String) (line : Line) :
    checkLine known line = (openFindings line).filter (Finding.isKept known) := by
  rw [checkLine, openFindings]
  rcases line.parse? with - | e | parsed
  · rfl
  · rfl
  · show checkAction known line.number line.text parsed.action
        ++ checkParameters line.number line.text parsed.parameters = _
    rw [List.filter_cons, filter_isKept_checkParameters, checkAction]
    by_cases hempty : parsed.action = ""
    · rw [if_pos hempty, if_pos hempty]
      rfl
    · rw [if_neg hempty, if_neg hempty]
      -- the finding is kept under the condition under which it is made
      have hkept : Finding.isKept known (.unknownAction line.number parsed.action)
          = decide (known ≠ [] ∧ parsed.action ∉ known) := rfl
      by_cases hunknown : known ≠ [] ∧ parsed.action ∉ known
      · rw [if_pos hunknown, hkept, if_pos (decide_eq_true hunknown)]
        rfl
      · rw [if_neg hunknown, hkept, if_neg (by simpa using hunknown)]
        rfl

/-- **What a list of known actions does**: it keeps some of the findings that would be made without
it, in their order. -/
theorem findings_eq_filter (known : List String) (text : String) :
    findings known text
      = ((scriptLines text).flatMap openFindings
          ++ [Finding.summary ((scriptLines text).countP Line.isAction)]).filter
            (Finding.isKept known) := by
  have hlines : checkLine known = fun line => (openFindings line).filter (Finding.isKept known) :=
    funext (checkLine_eq_filter known)
  rw [List.filter_append, List.filter_flatMap, findings, hlines]
  rfl

/-! ### Diagnostics -/

/-- Whether a diagnostic warns that an action is unknown. -/
def Diagnostic.rejects (action : String) (d : Diagnostic) : Bool :=
  d.level = .warn ∧ d.message = "未知动作 '" ++ action ++ "'"

/-- A warning that an action is unknown is told from all others by its wording. -/
theorem rejects_diagnostic (action script : String) (finding : Finding) :
    (finding.diagnostic script).rejects action = true ↔
      ∃ number, finding = .unknownAction number action := by
  constructor
  · intro h
    obtain ⟨hlevel, hmessage⟩ := of_decide_eq_true h
    have hreports : (finding.diagnostic script).reports .unknownAction = true := by
      refine decide_eq_true ⟨hlevel, ?_⟩
      rw [hmessage, String.append_assoc, String.toList_append]
      exact List.prefix_append _ _
    rw [reports_diagnostic] at hreports
    cases finding with
    | unknownAction number other =>
      have htext : ("未知动作 '" ++ other ++ "'").toList = ("未知动作 '" ++ action ++ "'").toList :=
        congrArg String.toList hmessage
      rw [String.toList_append, String.toList_append, String.toList_append, String.toList_append]
        at htext
      obtain rfl := String.toList_inj.mp
        (List.append_cancel_left (List.append_cancel_right htext))
      exact ⟨number, rfl⟩
    | malformed | emptyAction | emptyParameter | summary => cases hreports
  · rintro ⟨number, rfl⟩
    exact decide_eq_true ⟨rfl, rfl⟩

variable {script text : String} {known known' : List String}

/-- **What two lists of known actions keep** can be compared finding by finding. -/
theorem filter_checkScript_eq {p p' : Diagnostic → Bool}
    (h : ∀ finding : Finding, (p (finding.diagnostic script) && finding.isKept known)
      = (p' (finding.diagnostic script) && finding.isKept known')) :
    (checkScript script text known).filter p = (checkScript script text known').filter p' := by
  rw [checkScript, checkScript, List.filter_map, List.filter_map, findings_eq_filter,
    findings_eq_filter known', List.filter_filter, List.filter_filter]
  exact congrArg _ (List.filter_congr fun finding _ => h finding)

/-- What one list of known actions keeps of what another keeps. -/
theorem checkScript_eq_filter {p : Diagnostic → Bool} (h : ∀ finding : Finding,
      finding.isKept known' = (p (finding.diagnostic script) && finding.isKept known)) :
    checkScript script text known' = (checkScript script text known).filter p := by
  have hall : (checkScript script text known').filter (fun _ => true)
      = checkScript script text known' := List.filter_eq_self.mpr fun _ _ => rfl
  rw [← hall]
  apply filter_checkScript_eq
  intro finding
  rw [Bool.true_and, h]

/-! ### Two lists -/

/-- Lists with the same elements keep the same findings. -/
theorem isKept_of_mem_iff (h : ∀ action, action ∈ known ↔ action ∈ known') (finding : Finding) :
    finding.isKept known = finding.isKept known' := by
  have hempty : known = [] ↔ known' = [] := by
    simp only [List.eq_nil_iff_forall_not_mem, h]
  cases finding with
  | unknownAction number action => simp only [Finding.isKept, ne_eq, hempty, h]
  | malformed | emptyAction | emptyParameter | summary => rfl

/-- No list has a say in what is not about an unknown action. -/
theorem isKept_of_not_reports {finding : Finding}
    (h : (finding.diagnostic script).reports .unknownAction = false) :
    finding.isKept known = true := by
  rw [reports_diagnostic] at h
  cases finding with
  | unknownAction number action => cases h
  | malformed | emptyAction | emptyParameter | summary => rfl

/-- An empty list keeps what is not about an unknown action, and nothing else. -/
theorem isKept_nil (script : String) (finding : Finding) :
    finding.isKept [] = ! (finding.diagnostic script).reports .unknownAction := by
  rw [reports_diagnostic]
  cases finding with
  | unknownAction | malformed | emptyAction | emptyParameter | summary => rfl

/-- Whether a diagnostic warns of an action that the second list has and the first has not. -/
def Diagnostic.rejectsAdded (known known' : List String) (d : Diagnostic) : Bool :=
  known'.any fun action => action ∉ known ∧ d.rejects action

theorem rejectsAdded_diagnostic (finding : Finding) :
    (finding.diagnostic script).rejectsAdded known known' = true ↔
      ∃ number action, finding = .unknownAction number action ∧ action ∈ known' ∧
        action ∉ known := by
  simp only [Diagnostic.rejectsAdded, List.any_eq_true, decide_eq_true_eq, rejects_diagnostic]
  constructor
  · rintro ⟨action, hmem, hnot, number, hfinding⟩
    exact ⟨number, action, hfinding, hmem, hnot⟩
  · rintro ⟨number, action, hfinding, hmem, hnot⟩
    exact ⟨action, hmem, hnot, number, hfinding⟩

/-- A list that is not empty, made longer, keeps all but what is about the actions added. -/
theorem isKept_of_subset (hne : known ≠ []) (hsubset : known ⊆ known') (script : String)
    (finding : Finding) :
    finding.isKept known'
      = (! (finding.diagnostic script).rejectsAdded known known' && finding.isKept known) := by
  have hne' : known' ≠ [] := fun hnil => hne (List.subset_nil.mp (hnil ▸ hsubset))
  rw [Bool.eq_iff_iff, Bool.and_eq_true, Bool.not_eq_true', ← Bool.not_eq_true,
    rejectsAdded_diagnostic]
  cases finding with
  | unknownAction number action =>
    simp only [Finding.isKept, decide_eq_true_eq]
    constructor
    · rintro ⟨-, hnot⟩
      refine ⟨?_, hne, fun hmem => hnot (hsubset hmem)⟩
      rintro ⟨number', action', heq, hmem, -⟩
      obtain ⟨-, rfl⟩ := Finding.unknownAction.inj heq
      exact hnot hmem
    · rintro ⟨hadded, -, hnot⟩
      exact ⟨hne', fun hmem => hadded ⟨number, action, rfl, hmem, hnot⟩⟩
  | malformed | emptyAction | emptyParameter | summary => simp [Finding.isKept]

/-- **What a longer list leaves out** are the warnings about the actions added. -/
theorem checkScript_of_subset (hne : known ≠ []) (hsubset : known ⊆ known') (script text : String) :
    checkScript script text known'
      = (checkScript script text known).filter fun d => ! d.rejectsAdded known known' :=
  checkScript_eq_filter (isKept_of_subset hne hsubset script)

/-! ### Passing -/

namespace Report

/-- Fewer diagnostics are no reason to fail. -/
theorem fails_eq_false_of_subset {r s : Report} {strict : Bool}
    (h : s.diagnostics ⊆ r.diagnostics) (hpasses : r.fails strict = false) :
    s.fails strict = false := by
  have hhas : ∀ level, s.diagnostics.Has level → r.diagnostics.Has level := by
    rintro level ⟨d, hd, hlevel⟩
    exact ⟨d, h hd, hlevel⟩
  obtain ⟨herror, hwarn⟩ := fails_eq_false_iff.mp hpasses
  refine fails_eq_false_iff.mpr ⟨mt (hhas .error) herror, fun hstrict => ?_⟩
  exact mt (hhas .warn) (hwarn hstrict)

end Report

theorem checkScript_subset (hne : known ≠ []) (hsubset : known ⊆ known') (script text : String) :
    checkScript script text known' ⊆ checkScript script text known := by
  rw [checkScript_of_subset hne hsubset]
  exact List.filter_subset_self _

theorem diagnostics_ofFile_subset (hne : known ≠ []) (hsubset : known ⊆ known') (fs : FileSystem)
    (path : String) :
    (Report.ofFile fs known' path).diagnostics ⊆ (Report.ofFile fs known path).diagnostics := by
  rw [Report.ofFile, Report.ofFile]
  cases fs.readText path with
  | error failure => exact List.Subset.refl _
  | ok text => exact checkScript_subset hne hsubset path text

/-! ### All together -/

/-- How the report about a script depends on the list of known actions. -/
structure KnownAsSet (script text : String) : Prop where
  /-- Neither the order of the list nor repetitions matter. -/
  of_mem_iff : ∀ known known', (∀ action, action ∈ known ↔ action ∈ known') →
    checkScript script text known = checkScript script text known'
  /-- Only the warnings about unknown actions differ, -/
  others_eq : ∀ known known',
    (checkScript script text known).filter (fun d => ! d.reports .unknownAction)
      = (checkScript script text known').filter fun d => ! d.reports .unknownAction
  /-- and if a list that is not empty is made longer, those about the actions added are left out. -/
  of_subset : ∀ known known', known ≠ [] → known ⊆ known' →
    checkScript script text known'
      = (checkScript script text known).filter fun d => ! d.rejectsAdded known known'
  /-- The empty list leaves all of them out. -/
  of_nil : ∀ known, checkScript script text []
    = (checkScript script text known).filter fun d => ! d.reports .unknownAction
  /-- So a script that passes still passes when a list that is not empty is made longer. -/
  passes : ∀ known known' strict, known ≠ [] → known ⊆ known' →
    (Report.mk 1 (checkScript script text known) (scriptUsage text)).fails strict = false →
    (Report.mk 1 (checkScript script text known') (scriptUsage text)).fails strict = false

theorem knownAsSet (script text : String) : KnownAsSet script text where
  of_mem_iff known known' h := by
    have hkept : Finding.isKept known = Finding.isKept known' := funext (isKept_of_mem_iff h)
    rw [checkScript, checkScript, findings_eq_filter, hkept, ← findings_eq_filter]
  others_eq known known' := by
    apply filter_checkScript_eq
    intro finding
    cases hreports : (finding.diagnostic script).reports .unknownAction with
    | true => rfl
    | false => rw [isKept_of_not_reports hreports, isKept_of_not_reports hreports]
  of_subset known known' hne hsubset := checkScript_of_subset hne hsubset script text
  of_nil known := by
    apply checkScript_eq_filter
    intro finding
    rw [isKept_nil script]
    cases hreports : (finding.diagnostic script).reports .unknownAction with
    | true => rfl
    | false => rw [isKept_of_not_reports hreports]; rfl
  passes known known' strict hne hsubset :=
    Report.fails_eq_false_of_subset (checkScript_subset hne hsubset script text)

/-- **The known actions act as a set**, and all that they decide is which warnings about unknown
actions are given.  So a check that passes with a list of known actions, in either format and
whether or not warnings count as errors, still passes when the list is made longer. -/
theorem knownActions_actAsSet :
    (∀ script text, KnownAsSet script text) ∧
    ∀ (fs : FileSystem) (config : Configuration) (known' : List String) (path? : Option String)
      (format : ReportFormat), config.knownActions ≠ [] → config.knownActions ⊆ known' →
      (runCheck fs config path? format).failure? = none →
      (runCheck fs ⟨config.scriptsDir, config.extensions, known', config.warningsAsErrors⟩ path?
        format).failure? = none := by
  refine ⟨knownAsSet, fun fs config known' path? format hne hsubset hpasses => ?_⟩
  rw [failure?_runCheck_eq_none_iff, Report.fails_ofFiles_eq_false_iff] at hpasses ⊢
  obtain ⟨hroot, hfiles⟩ := hpasses
  -- which files there are does not depend on the known actions
  refine ⟨hroot, fun path hpath => ?_⟩
  exact Report.fails_eq_false_of_subset (diagnostics_ofFile_subset hne hsubset fs path)
    (hfiles path hpath)

/-- The law at a list that is made longer by one of two unknown actions, and a check of a file that
passes by the shorter list. -/
theorem knownActions_actAsSet_of_longer_list :
    let text := "<a>\n<b:,>\n<c>\n<:x>\n"
    let known := ["a"]
    let known' := ["c", "a", "c"]
    let fs : FileSystem := ⟨.directory [("f", .file "<a>".toUTF8)], []⟩
    let config : Configuration := ⟨"f", ["txt"], known, true⟩
    known ≠ [] ∧ known ⊆ known' ∧ (∀ action, action ∈ known' ↔ action ∈ ["a", "c"]) ∧
      (runCheck fs config none .json).failure? = none ∧
      checkScript "s" text known' = checkScript "s" text ["a", "c"] ∧
      checkScript "s" text known'
        = (checkScript "s" text known).filter (fun d => ! d.rejectsAdded known known') ∧
      (runCheck fs ⟨"f", ["txt"], known', true⟩ none .json).failure? = none := by
  intro text known known' fs config
  have hne : known ≠ [] := List.cons_ne_nil _ _
  have hsubset : known ⊆ known' := by simp [known, known']
  have hsame : ∀ action, action ∈ known' ↔ action ∈ ["a", "c"] := by
    intro action
    simp only [known', List.mem_cons, List.not_mem_nil, or_false]
    tauto
  have hpasses : (runCheck fs config none .json).failure? = none := by decide +kernel
  obtain ⟨hset, hcheck⟩ := knownActions_actAsSet
  exact ⟨hne, hsubset, hsame, hpasses, (hset "s" text).of_mem_iff _ _ hsame,
    (hset "s" text).of_subset _ _ hne hsubset,
    hcheck fs config known' none .json hne hsubset hpasses⟩

end DialogueScript
