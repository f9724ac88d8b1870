/-
# What the check of a script reports

The report about an action line is described from its characters: `LineReport` gives the one error of
a line with a second colon, and for any other line the warning about its action, if there is one
(`ActionReport`), and a warning for each empty place among its parameters (`EmptyPlace`).

`checkScript_report` is the description of the whole report: the reports about the action lines of
the raw text, in the order of their numbers, and then the summary.  It leaves nothing open, for the
action lines are listed by increasing numbers and the empty places by increasing places.
-/
import Mathlib.Data.List.Forall2
import DialogueScript.Proofs.ActionLine.Grammar
import DialogueScript.Proofs.Script.Lines
import DialogueScript.Script.Check

namespace DialogueScript

open ActionLine (inside actionText parameterText parse_eq)

variable (script : String) (known : List String) (number : Nat) (raw : String)

/-! ### The report about one line -/

/-- The report about the action of a line: a warning if it is empty, or if it is not among the known
actions, where there are any. -/
inductive ActionReport : List Diagnostic → Prop
  | empty : actionText (inside raw) = [] →
      ActionReport [⟨.warn, script, some number, "动作名为空", some raw⟩]
  | unknown : actionText (inside raw) ≠ [] → known ≠ [] →
      String.ofList (actionText (inside raw)) ∉ known →
      ActionReport [⟨.warn, script, some number,
        "未知动作 '" ++ String.ofList (actionText (inside raw)) ++ "'", none⟩]
  | fine : actionText (inside raw) ≠ [] →
      known = [] ∨ String.ofList (actionText (inside raw)) ∈ known → ActionReport []

/-- There are commas in the parameter text of a line, and nothing stands between them, or between
one of them and an end, at this place. -/
def EmptyPlace (place : Nat) : Prop :=
  ',' ∈ parameterText (inside raw) ∧ PieceAt ',' (parameterText (inside raw)) place []

/-- The report about an action line. -/
inductive LineReport : List Diagnostic → Prop
  | malformed : 2 ≤ (inside raw).count ':' →
      LineReport [⟨.error, script, some number, "无效的动作行语法: " ++ raw, none⟩]
  | wellFormed {warnings : List Diagnostic} {places : List Nat} : (inside raw).count ':' ≤ 1 →
      ActionReport script known number raw warnings → places.Pairwise (· < ·) →
      (∀ place, place ∈ places ↔ EmptyPlace raw place) →
      LineReport (warnings ++ places.map fun place => ⟨.warn, script, some number,
        "第 " ++ String.ofList (renderNatural place) ++ " 个参数为空", some raw⟩)

/-- The diagnostics about an action line. -/
def lineDiagnostics : Diagnostics :=
  (checkLine known ⟨.action, number, raw⟩).map (Finding.diagnostic script)

theorem actionReport_checkAction :
    ActionReport script known number raw
      ((checkAction known number raw (String.ofList (actionText (inside raw)))).map
        (Finding.diagnostic script)) := by
  rw [checkAction]
  by_cases hempty : actionText (inside raw) = []
  · rw [if_pos (String.ofList_eq_empty_iff.mpr hempty)]
    exact .empty hempty
  · rw [if_neg (mt String.ofList_eq_empty_iff.mp hempty)]
    by_cases hunknown : known ≠ [] ∧ String.ofList (actionText (inside raw)) ∉ known
    · rw [if_pos hunknown]
      exact .unknown hempty hunknown.1 hunknown.2
    · rw [if_neg hunknown]
      apply ActionReport.fine hempty
      by_contra hnot
      rw [not_or] at hnot
      exact hunknown hnot

/-! #### Empty places -/

/-- The places of the empty pieces among several, from the first. -/
def emptyPlaces (list : List Char) : List Nat :=
  if ',' ∈ list then
    ((list.splitOn ',').zipIdx 1).filterMap fun (piece, place) =>
      if piece = [] then some place else none
  else []

theorem mem_emptyPlaces {list : List Char} {place : Nat} :
    place ∈ emptyPlaces list ↔ ',' ∈ list ∧ PieceAt ',' list place [] := by
  rw [emptyPlaces]
  split
  · next hcomma =>
    rw [List.mem_filterMap]
    constructor
    · rintro ⟨⟨piece, place'⟩, hmem, hplace⟩
      simp only [Option.ite_none_right_eq_some, Option.some.injEq] at hplace
      obtain ⟨rfl, rfl⟩ := hplace
      exact ⟨hcomma, mem_zipIdx_splitOn.mp hmem⟩
    · rintro ⟨-, hpiece⟩
      exact ⟨([], place), mem_zipIdx_splitOn.mpr hpiece, rfl⟩
  · next hcomma => simp [hcomma]

theorem pairwise_emptyPlaces (list : List Char) : (emptyPlaces list).Pairwise (· < ·) := by
  rw [emptyPlaces]
  split
  · apply (pairwise_zipIdx (list.splitOn ',') 1).filterMap
    intro a b hab place hplace place' hplace'
    simp only [Option.ite_none_right_eq_some, Option.some.injEq] at hplace hplace'
    rw [← hplace.2, ← hplace'.2]
    exact hab
  · exact .nil

/-- The findings about the parameters are about the empty places.  A text without a comma is cut
into one piece, which may be empty. -/
theorem checkParameters_map_ofList (list : List Char) :
    checkParameters number raw ((list.splitOn ',').map String.ofList)
      = (emptyPlaces list).map fun place => .emptyParameter number place raw := by
  have hlength := length_splitOn ',' list
  rw [checkParameters, emptyPlaces, List.length_map, hlength]
  by_cases hcomma : ',' ∈ list
  · have hpos := List.count_pos_iff.mpr hcomma
    rw [if_pos hcomma, if_neg (by omega), List.zipIdx_map, List.filterMap_map, List.map_filterMap]
    apply List.filterMap_congr
    rintro ⟨piece, place⟩ -
    by_cases hpiece : piece = []
    · subst hpiece
      rfl
    · simp [hpiece]
  · rw [if_neg hcomma, List.count_eq_zero.mpr hcomma, if_pos (Nat.le_refl 1), List.map_nil]

/-- **The diagnostics about an action line are its report.** -/
theorem lineReport_lineDiagnostics (hlength : 2 ≤ raw.length) :
    LineReport script known number raw (lineDiagnostics script known number raw) := by
  show LineReport script known number raw
    ((checkParsed known number raw (ActionLine.parse raw)).map (Finding.diagnostic script))
  rw [parse_eq]
  by_cases hcount : (inside raw).count ':' ≤ 1
  · rw [if_pos ⟨hlength, hcount⟩, checkParsed, List.map_append, checkParameters_map_ofList, List.map_map]
    apply LineReport.wellFormed hcount
    · exact actionReport_checkAction script known number raw
    · exact pairwise_emptyPlaces _
    · intro place
      exact mem_emptyPlaces
  · rw [if_neg fun h => hcount h.2]
    exact .malformed (Nat.lt_of_not_le hcount)

/-- The delimiters of an action line are the two characters that parsing takes away. -/
theorem ActionAt.lineReport {text : String} (h : ActionAt text number raw) :
    LineReport script known number raw (lineDiagnostics script known number raw) := by
  obtain ⟨segment, -, -, hhead, hlast, -⟩ := h
  exact lineReport_lineDiagnostics script known number raw (two_le_length_of_ends hhead hlast)

/-! ### The report about a script -/

/-- The last diagnostic about a script counts its action lines. -/
def summary (actionLines : Nat) : Diagnostic :=
  ⟨.info, script, none,
    "共检查 " ++ String.ofList (renderNatural actionLines) ++ " 个动作行", none⟩

/-- A script is checked action line by action line. -/
theorem checkScript_eq (text : String) :
    checkScript script text known
      = ((actionLines text).map fun (number, raw) =>
          lineDiagnostics script known number raw).flatten
        ++ [summary script (actionLines text).length] := by
  have hdialogue : ∀ line : Line, line.isAction = false → checkLine known line = [] := by
    rintro ⟨kind, number, raw⟩ hkind
    cases kind with
    | action => cases hkind
    | dialogue => rfl
  rw [checkScript, findings, flatMap_scriptLines text _ hdialogue, List.map_append,
    length_actionLines, List.map_flatMap]
  rfl

/-- **The report about a script**: for its action lines, taken in the order of their numbers, what
each of them gives rise to, and at last the summary with the number of these lines. -/
theorem checkScript_report (text : String) :
    ∃ (lines : List (Nat × String)) (reports : List Diagnostics),
      lines.Pairwise (fun a b => a.1 < b.1) ∧
      (∀ number raw, (number, raw) ∈ lines ↔ ActionAt text number raw) ∧
      List.Forall₂ (fun line report => LineReport script known line.1 line.2 report)
        lines reports ∧
      checkScript script text known = reports.flatten ++ [⟨.info, script, none,
        "共检查 " ++ String.ofList (renderNatural lines.length) ++ " 个动作行", none⟩] := by
  refine ⟨actionLines text, _, pairwise_actionLines text, fun _ _ => mem_actionLines, ?_,
    checkScript_eq script known text⟩
  apply List.forall₂_map_right_iff.mpr
  apply List.forall₂_same.mpr
  rintro ⟨number, raw⟩ hline
  exact (mem_actionLines.mp hline).lineReport script known number raw

end DialogueScript
