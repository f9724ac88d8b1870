/-
# The check and the usage of a script agree

A script is read twice, once to check it and once to count its actions.  Both go through the same
lines, and both divide them alike: dialogue, action lines that cannot be parsed, and action lines
with an action (`LineFindings`).  So the findings about a fault are counted by what the usage holds,
or does not hold (`countP_reports_checkScript`).

The counts themselves are those of the raw text: `AcceptedAt` says which of its lines are action
lines with an action, and `usage_balances` is the balance of the two readings.
-/
import Mathlib.Data.Set.Card
import DialogueScript.Proofs.Script.Lines
import DialogueScript.Proofs.Script.Usage
import DialogueScript.Script.Check

namespace DialogueScript

/-! ### Faults -/

/-- What may be at fault in an action line, its parameters aside. -/
inductive Fault where
  /-- The line cannot be parsed. -/
  | malformed
  | emptyAction
  /-- The action is not among the known ones. -/
  | unknownAction
  deriving Repr, DecidableEq

/-- Whether a finding is about a fault. -/
def Finding.isAbout : Fault → Finding → Bool
  | .malformed, .malformed .. => true
  | .emptyAction, .emptyAction .. => true
  | .unknownAction, .unknownAction .. => true
  | _, _ => false

/-- Whether a diagnostic reports a fault: every error does, and a warning by its wording. -/
def Diagnostic.reports : Fault → Diagnostic → Bool
  | .malformed, d => d.level = .error
  | .emptyAction, d => d.level = .warn ∧ d.message = "动作名为空"
  | .unknownAction, d => d.level = .warn ∧ "未知动作 '".toList <+: d.message.toList

theorem reports_emptyAction_eq_false {d : Diagnostic} (h : d.message ≠ "动作名为空") :
    d.reports .emptyAction = false :=
  decide_eq_false fun hd => h hd.2

theorem reports_unknownAction_eq_false {d : Diagnostic}
    (h : ¬ "未知动作 '".toList <+: d.message.toList) : d.reports .unknownAction = false :=
  decide_eq_false fun hd => h hd.2

/-- The wording tells the faults apart, and from empty parameters: where it differs, the first
character does. -/
theorem reports_diagnostic (fault : Fault) (script : String) (finding : Finding) :
    (finding.diagnostic script).reports fault = finding.isAbout fault := by
  cases fault with
  | malformed => cases finding <;> rfl
  | emptyAction =>
    cases finding with
    | malformed number e => rfl
    | emptyAction number raw => rfl
    | unknownAction number action =>
      have hmessage : "未知动作 '" ++ action ++ "'" ≠ "动作名为空" := by
        rw [Ne, ← String.toList_inj, String.toList_append, String.toList_append]
        exact fun h => absurd (List.head_eq_of_cons_eq h) (by decide)
      exact reports_emptyAction_eq_false hmessage
    | emptyParameter number place raw =>
      have hmessage : "第 " ++ String.ofList (renderNatural place) ++ " 个参数为空" ≠ "动作名为空" := by
        rw [Ne, ← String.toList_inj, String.toList_append, String.toList_append]
        exact fun h => absurd (List.head_eq_of_cons_eq h) (by decide)
      exact reports_emptyAction_eq_false hmessage
    | summary n => rfl
  | unknownAction =>
    cases finding with
    | malformed number e => rfl
    | emptyAction number raw =>
      have hmessage : ¬ "未知动作 '".toList <+: "动作名为空".toList := by decide
      exact reports_unknownAction_eq_false hmessage
    | unknownAction number action =>
      have hmessage : "未知动作 '".toList <+: ("未知动作 '" ++ action ++ "'").toList := by
        rw [String.append_assoc, String.toList_append]
        exact List.prefix_append _ _
      exact decide_eq_true ⟨rfl, hmessage⟩
    | emptyParameter number place raw =>
      have hmessage : ¬ "未知动作 '".toList
          <+: ("第 " ++ String.ofList (renderNatural place) ++ " 个参数为空").toList := by
        rw [String.toList_append, String.toList_append]
        exact fun h => absurd (List.cons_prefix_cons.mp h).1 (by decide)
      exact reports_unknownAction_eq_false hmessage
    | summary n => rfl

/-! ### What is found about a line -/

/-- Whether a fault is found in a line. -/
def Line.hasFault (known : List String) : Fault → Line → Bool
  | .malformed, line => line.isAction ∧ line.action? = none
  | .emptyAction, line => line.action? = some ""
  | .unknownAction, line =>
    line.action?.any fun action => action ≠ "" ∧ known ≠ [] ∧ action ∉ known

/-- What is found about a line, beside its action. -/
inductive LineFindings (known : List String) (line : Line) : List Finding → Prop
  | dialogue : line.isAction = false → line.action? = none → LineFindings known line []
  | malformed (e : LineError) : line.isAction = true → line.action? = none →
      LineFindings known line [.malformed line.number e]
  | parsed (action : String) (parameters : List String) :
      line.isAction = true → line.action? = some action →
      LineFindings known line
        (checkAction known line.number line.text action
          ++ checkParameters line.number line.text parameters)

theorem lineFindings_checkLine (known : List String) (line : Line) :
    LineFindings known line (checkLine known line) := by
  obtain ⟨kind, number, text⟩ := line
  cases kind with
  | dialogue => exact .dialogue rfl rfl
  | action =>
    rcases hparse : ActionLine.parse text with e | parsed
    · have hcheck : checkLine known ⟨.action, number, text⟩ = [.malformed number e] := by
        rw [checkLine, Line.parse?, hparse]
        rfl
      rw [hcheck]
      exact .malformed e rfl (by rw [Line.action?, Line.parse?, hparse])
    · have hcheck : checkLine known ⟨.action, number, text⟩
          = checkAction known number text parsed.action
            ++ checkParameters number text parsed.parameters := by
        rw [checkLine, Line.parse?, hparse]
        rfl
      rw [hcheck]
      exact .parsed parsed.action parsed.parameters rfl (by rw [Line.action?, Line.parse?, hparse])

/-- About its parameters nothing is found but empty ones. -/
theorem eq_emptyParameter_of_mem {number : Nat} {raw : String} {parameters : List String}
    {finding : Finding} (h : finding ∈ checkParameters number raw parameters) :
    ∃ place, finding = .emptyParameter number place raw := by
  rw [checkParameters] at h
  split at h
  · cases h
  · obtain ⟨⟨parameter, place⟩, -, hplace⟩ := List.mem_filterMap.mp h
    simp only [Option.ite_none_right_eq_some, Option.some.injEq] at hplace
    exact ⟨place, hplace.2.symm⟩

theorem countP_checkParameters (fault : Fault) (number : Nat) (raw : String)
    (parameters : List String) :
    (checkParameters number raw parameters).countP (Finding.isAbout fault) = 0 := by
  rw [List.countP_eq_zero]
  intro finding hmem
  obtain ⟨place, rfl⟩ := eq_emptyParameter_of_mem hmem
  cases fault <;> exact Bool.noConfusion

/-- A finding about an action is a warning. -/
theorem level_of_mem_checkAction {known : List String} {number : Nat} {raw action : String}
    {finding : Finding} (h : finding ∈ checkAction known number raw action) :
    finding.level = .warn := by
  rw [checkAction] at h
  split at h
  · obtain rfl := List.mem_singleton.mp h
    rfl
  · split at h
    · obtain rfl := List.mem_singleton.mp h
      rfl
    · cases h

/-- No finding about a line is mere information. -/
theorem LineFindings.level_ne_info {known : List String} {line : Line} {findings : List Finding}
    (h : LineFindings known line findings) : ∀ finding ∈ findings, finding.level ≠ .info := by
  intro finding hmem
  cases h with
  | dialogue => cases hmem
  | malformed e =>
    obtain rfl := List.mem_singleton.mp hmem
    exact Level.noConfusion
  | parsed action parameters =>
    rcases List.mem_append.mp hmem with hmem | hmem
    · rw [level_of_mem_checkAction hmem]
      exact Level.noConfusion
    · obtain ⟨place, rfl⟩ := eq_emptyParameter_of_mem hmem
      exact Level.noConfusion

/-- **A fault of a line is found once.** -/
theorem LineFindings.countP_isAbout {known : List String} {line : Line} {findings : List Finding}
    (h : LineFindings known line findings) (fault : Fault) :
    findings.countP (Finding.isAbout fault) = if line.hasFault known fault then 1 else 0 := by
  cases h with
  | dialogue hkind haction => cases fault <;> simp [Line.hasFault, hkind, haction]
  | malformed e hkind haction =>
    cases fault <;> simp [Line.hasFault, Finding.isAbout, hkind, haction]
  | parsed action parameters hkind haction =>
    rw [List.countP_append, countP_checkParameters, Nat.add_zero, checkAction]
    -- what is found about an action is found once, or nothing is
    by_cases hempty : action = ""
    · rw [if_pos hempty]
      cases fault <;> simp [Line.hasFault, Finding.isAbout, haction, hempty]
    · by_cases hunknown : known ≠ [] ∧ action ∉ known
      · rw [if_neg hempty, if_pos hunknown]
        cases fault <;> simp [Line.hasFault, Finding.isAbout, haction, hempty, hunknown]
      · rw [if_neg hempty, if_neg hunknown]
        cases fault <;> simp [Line.hasFault, haction, hempty, hunknown]

/-! ### What is found about a script -/

/-- A count over several lists, each of which counts at most once. -/
theorem countP_flatMap_of_countP {α β : Type} {f : α → List β} {q : β → Bool} {c : α → Bool}
    (h : ∀ a, (f a).countP q = if c a then 1 else 0) (list : List α) :
    (list.flatMap f).countP q = list.countP c := by
  induction list with
  | nil => rfl
  | cons a list ih =>
    rw [List.flatMap_cons, List.countP_append, h, ih, List.countP_cons, Nat.add_comm]

/-- **The reports of a fault count the lines that have it.** -/
theorem countP_reports_checkScript (script text : String) (known : List String) (fault : Fault) :
    (checkScript script text known).countP (Diagnostic.reports fault)
      = (scriptLines text).countP (Line.hasFault known fault) := by
  have hlines := countP_flatMap_of_countP
    (fun line => (lineFindings_checkLine known line).countP_isAbout fault) (scriptLines text)
  have hreports : Diagnostic.reports fault ∘ Finding.diagnostic script = Finding.isAbout fault := by
    funext finding
    exact reports_diagnostic fault script finding
  rw [checkScript, List.countP_map, hreports, findings, List.countP_append, hlines]
  cases fault <;> rfl

/-! ### What is counted -/

/-- The actions of a script, line by line. -/
def scriptActions (text : String) : List String :=
  (scriptLines text).filterMap Line.action?

theorem scriptUsage_eq_tally (text : String) :
    scriptUsage text = Usage.tally (scriptActions text) :=
  Usage.foldl_add_eq_tally (scriptActions text)

theorem countP_scriptActions (text : String) (p : String → Bool) :
    (scriptActions text).countP p = (scriptLines text).countP fun line => line.action?.any p := by
  rw [scriptActions, List.countP_filterMap]
  apply List.countP_congr
  intro line _
  cases line.action? <;> simp

theorem action?_eq_some_iff {line : Line} {action : String} :
    line.action? = some action ↔
      line.isAction = true ∧ ∃ parsed, ActionLine.parse line.text = .ok parsed ∧
        parsed.action = action := by
  obtain ⟨kind, number, text⟩ := line
  cases kind with
  | dialogue => simp [Line.action?, Line.parse?, Line.isAction]
  | action =>
    rcases hparse : ActionLine.parse text with e | parsed <;>
      simp [Line.action?, Line.parse?, Line.isAction, hparse]

/-- The line of a text with this number is an action line that can be parsed and has this action. -/
def AcceptedAt (text action : String) (number : Nat) : Prop :=
  ∃ raw parsed, ActionAt text number raw ∧ ActionLine.parse raw = .ok parsed ∧
    parsed.action = action

theorem acceptedAt_iff {text action : String} {number : Nat} :
    AcceptedAt text action number ↔
      ∃ line ∈ scriptLines text, line.number = number ∧ line.action? = some action := by
  constructor
  · rintro ⟨raw, parsed, hraw, hparse, haction⟩
    obtain ⟨line, hline, heq⟩ := List.mem_map.mp (mem_actionLines.mpr hraw)
    obtain ⟨rfl, rfl⟩ := Prod.mk.inj heq
    obtain ⟨hmem, hkind⟩ := List.mem_filter.mp hline
    exact ⟨line, hmem, rfl, action?_eq_some_iff.mpr ⟨hkind, parsed, hparse, haction⟩⟩
  · rintro ⟨line, hmem, rfl, haction⟩
    obtain ⟨hkind, parsed, hparse, haction⟩ := action?_eq_some_iff.mp haction
    refine ⟨line.text, parsed, mem_actionLines.mp ?_, hparse, haction⟩
    exact List.mem_map.mpr ⟨line, List.mem_filter.mpr ⟨hmem, hkind⟩, rfl⟩

theorem mem_scriptActions_iff {text action : String} :
    action ∈ scriptActions text ↔ ∃ number, AcceptedAt text action number := by
  simp only [scriptActions, List.mem_filterMap, acceptedAt_iff]
  constructor
  · rintro ⟨line, hmem, haction⟩
    exact ⟨line.number, line, hmem, rfl, haction⟩
  · rintro ⟨number, line, hmem, -, haction⟩
    exact ⟨line, hmem, haction⟩

/-- **An action is counted once for each of its lines.**  No two lines have the same number, so the
lines can be counted by their numbers. -/
theorem encard_acceptedAt (text action : String) :
    {number | AcceptedAt text action number}.encard = (scriptActions text).count action := by
  let numbers := ((scriptLines text).filter fun line => line.action? = some action).map Line.number
  have hnodup : numbers.Nodup := by
    apply List.pairwise_map.mpr
    exact ((pairwise_scriptLines text).filter _).imp Nat.ne_of_lt
  have hset : {number | AcceptedAt text action number} = (numbers.toFinset : Set Nat) := by
    ext number
    simp only [numbers, Set.mem_ofPred_eq, List.coe_toFinset, List.mem_map, List.mem_filter,
      decide_eq_true_eq, acceptedAt_iff]
    exact exists_congr fun line => ⟨fun h => ⟨⟨h.1, h.2.2⟩, h.2.1⟩, fun h => ⟨h.1.1, h.2, h.1.2⟩⟩
  have hcount : (scriptActions text).count action = numbers.length := by
    rw [List.length_map, ← List.countP_eq_length_filter, scriptActions, List.count_filterMap]
    apply List.countP_congr
    intro line _
    simp
  rw [hset, Set.encard_coe_eq_coe_finsetCard, List.toFinset_card_of_nodup hnodup, hcount]

/-! ### The balance -/

/-- How the usage of a script, the report about it and its raw text agree. -/
structure Balanced (script text : String) (known : List String) : Prop where
  /-- The actions of the usage are those of the lines that can be parsed. -/
  mem_names_iff : ∀ action,
    action ∈ (scriptUsage text).names ↔ ∃ number, AcceptedAt text action number
  /-- The count of an action is the number of its lines. -/
  encard_eq : ∀ action n, (action, n) ∈ (scriptUsage text).entries →
    {number | AcceptedAt text action number}.encard = n
  /-- The actions are listed in the order of their bytes, none twice. -/
  increasing : (scriptUsage text).entries.Pairwise fun a b => ByteOrder a.1 b.1
  /-- The lines that are counted and the errors make up the number in the summary, -/
  summary_eq : (checkScript script text known).filter (fun d => d.level = .info)
    = [⟨.info, script, none, "共检查 " ++ String.ofList (renderNatural
        ((scriptUsage text).total (fun _ => true) + (checkScript script text known).errors))
        ++ " 个动作行", none⟩]
  /-- which is the number of action lines. -/
  total_add_errors : (scriptUsage text).total (fun _ => true)
    + (checkScript script text known).errors = (scriptLines text).countP Line.isAction
  emptyAction_eq : (checkScript script text known).countP (Diagnostic.reports .emptyAction)
    = (scriptUsage text).count ""
  unknownAction_eq : known ≠ [] →
    (checkScript script text known).countP (Diagnostic.reports .unknownAction)
      = (scriptUsage text).total fun action => action ≠ "" ∧ action ∉ known
  unknownAction_eq_zero : known = [] →
    (checkScript script text known).countP (Diagnostic.reports .unknownAction) = 0

/-- An action line has an action, or it is an error. -/
theorem total_add_errors (script text : String) (known : List String) :
    (scriptUsage text).total (fun _ => true) + (checkScript script text known).errors
      = (scriptLines text).countP Line.isAction := by
  have herrors : (checkScript script text known).errors
      = (scriptLines text).countP (Line.hasFault known .malformed) :=
    countP_reports_checkScript script text known .malformed
  rw [herrors, scriptUsage_eq_tally, Usage.total_tally, countP_scriptActions]
  induction scriptLines text with
  | nil => rfl
  | cons line lines ih =>
    -- a line with an action counts on the left, one without as an error, and dialogue nowhere
    have hline : (if (line.action?.any fun _ => true) then 1 else 0)
        + (if line.hasFault known .malformed then 1 else 0) = if line.isAction then 1 else 0 := by
      rcases haction : line.action? with - | action
      · simp [Line.hasFault, haction]
      · simp [Line.hasFault, haction, (action?_eq_some_iff.mp haction).1]
    rw [List.countP_cons, List.countP_cons, List.countP_cons, ← ih, ← hline]
    omega

theorem filter_info_checkScript (script text : String) (known : List String) :
    (checkScript script text known).filter (fun d => d.level = .info)
      = [⟨.info, script, none, "共检查 " ++ String.ofList (renderNatural
          ((scriptLines text).countP Line.isAction)) ++ " 个动作行", none⟩] := by
  have hlines : ((scriptLines text).flatMap (checkLine known)).filter
      ((fun d : Diagnostic => decide (d.level = .info)) ∘ Finding.diagnostic script) = [] := by
    rw [List.filter_eq_nil_iff]
    intro finding hmem
    obtain ⟨line, -, hfinding⟩ := List.mem_flatMap.mp hmem
    exact mt of_decide_eq_true ((lineFindings_checkLine known line).level_ne_info finding hfinding)
  rw [checkScript, List.filter_map, findings, List.filter_append, hlines]
  rfl

/-- **The check and the usage balance.** -/
theorem usage_balances (script text : String) (known : List String) :
    Balanced script text known where
  mem_names_iff action := by
    rw [Catalogue.mem_names_iff, scriptUsage_eq_tally, ← mem_scriptActions_iff]
    simp [Usage.find?_tally]
  encard_eq action n h := by
    rw [Catalogue.mem_entries_iff, scriptUsage_eq_tally, Usage.find?_tally] at h
    split at h
    · rw [encard_acceptedAt, Option.some.inj h]
    · cases h
  increasing := (scriptUsage text).increasing
  summary_eq := by
    rw [total_add_errors, filter_info_checkScript]
  total_add_errors := total_add_errors script text known
  emptyAction_eq := by
    rw [countP_reports_checkScript, scriptUsage_eq_tally, Usage.count_tally, List.count,
      countP_scriptActions]
    apply List.countP_congr
    intro line _
    rcases haction : line.action? with - | action <;> simp [Line.hasFault, haction]
  unknownAction_eq hknown := by
    rw [countP_reports_checkScript, scriptUsage_eq_tally, Usage.total_tally, countP_scriptActions]
    apply List.countP_congr
    intro line _
    simp [Line.hasFault, hknown]
  unknownAction_eq_zero hknown := by
    rw [countP_reports_checkScript, List.countP_eq_zero]
    intro line _
    cases line.action? <;> simp [Line.hasFault, hknown]

end DialogueScript
