/-
# Scripts one after the other

Two texts with a line end between them are one script, and no line of it depends on any other.  So it
is read as the first text is, and then as the second is, except that the lines of the second have
moved down: by the lines of the first, blank ones included, which are one more than its line ends.

The text is cut at its line ends, and the line end in the middle is one of the cuts
(`numberedSegments_append`).  What comes of a segment moves with it: the line that it is read as
(`ofSegment?_add`), the findings about that line (`checkLine_shift`) and the diagnostics.  The summary
and the usage do not look at numbers, and add up.
-/
import DialogueScript.Proofs.Script.Balance
import DialogueScript.Proofs.Script.Report

namespace DialogueScript

variable (script : String) (known : List String) (distance : Nat)

/-! ### Moving down -/

/-- The line, further down. -/
def Line.shift (line : Line) : Line :=
  { line with number := line.number + distance }

/-- The finding about a line that is further down. -/
def Finding.shift : Finding → Finding
  | malformed line error => malformed (line + distance) error
  | emptyAction line raw => emptyAction (line + distance) raw
  | unknownAction line action => unknownAction (line + distance) action
  | emptyParameter line place raw => emptyParameter (line + distance) place raw
  | summary actionLines => summary actionLines

/-- The diagnostic about a line that is further down. -/
def Diagnostic.shift (d : Diagnostic) : Diagnostic :=
  { d with line := d.line.map (· + distance) }

theorem diagnostic_shift (finding : Finding) :
    (finding.shift distance).diagnostic script = (finding.diagnostic script).shift distance := by
  cases finding <;> rfl

theorem ofSegment?_add (number : Nat) (segment : List Char) :
    Line.ofSegment? (number + distance) segment
      = (Line.ofSegment? number segment).map (Line.shift distance) := by
  simp only [Line.ofSegment?]
  split
  · rfl
  · rfl

theorem parse?_shift (line : Line) : (line.shift distance).parse? = line.parse? := rfl

theorem checkAction_shift (number : Nat) (raw action : String) :
    checkAction known (number + distance) raw action
      = (checkAction known number raw action).map (Finding.shift distance) := by
  simp only [checkAction]
  split
  · rfl
  · split
    · rfl
    · rfl

theorem checkParameters_shift (number : Nat) (raw : String) (parameters : List String) :
    checkParameters (number + distance) raw parameters
      = (checkParameters number raw parameters).map (Finding.shift distance) := by
  simp only [checkParameters]
  split
  · rfl
  · rw [List.map_filterMap]
    apply List.filterMap_congr
    rintro ⟨parameter, place⟩ -
    by_cases hempty : parameter = ""
    · rw [if_pos hempty, if_pos hempty]
      rfl
    · rw [if_neg hempty, if_neg hempty]
      rfl

/-- **The findings about a line move with it**, and otherwise stay. -/
theorem checkLine_shift (line : Line) :
    checkLine known (line.shift distance) = (checkLine known line).map (Finding.shift distance) := by
  rw [checkLine, checkLine, parse?_shift]
  rcases line.parse? with - | e | parsed
  · rfl
  · rfl
  · show checkAction known (line.number + distance) line.text parsed.action
        ++ checkParameters (line.number + distance) line.text parsed.parameters = _
    rw [checkAction_shift, checkParameters_shift, ← List.map_append]
    rfl

/-! ### What is read -/

/-- A text is cut at the line end in its middle, and the numbers go on behind it. -/
theorem numberedSegments_append (a b : String) :
    numberedSegments (a ++ "\n" ++ b)
      = numberedSegments a
        ++ (numberedSegments b).map (Prod.map id (· + (a.toList.count '\n' + 1))) := by
  have htext : (a ++ "\n" ++ b).toList = a.toList ++ '\n' :: b.toList := by simp
  rw [numberedSegments, htext, List.splitOn_append_cons_self, List.zipIdx_append, length_splitOn,
    numberedSegments, numberedSegments, List.map_snd_add_zipIdx_eq_zipIdx, Nat.add_comm 1]

/-- **The lines of two texts** are those of the first, and then those of the second, moved down. -/
theorem scriptLines_append (a b : String) :
    scriptLines (a ++ "\n" ++ b)
      = scriptLines a ++ (scriptLines b).map (Line.shift (a.toList.count '\n' + 1)) := by
  rw [scriptLines, numberedSegments_append, List.filterMap_append, List.filterMap_map, scriptLines,
    scriptLines, List.map_filterMap]
  congr 1
  apply List.filterMap_congr
  rintro ⟨segment, number⟩ -
  exact ofSegment?_add _ number segment

theorem countP_isAction_append (a b : String) :
    (scriptLines (a ++ "\n" ++ b)).countP Line.isAction
      = (scriptLines a).countP Line.isAction + (scriptLines b).countP Line.isAction := by
  rw [scriptLines_append, List.countP_append, List.countP_map]
  rfl

theorem scriptActions_append (a b : String) :
    scriptActions (a ++ "\n" ++ b) = scriptActions a ++ scriptActions b := by
  rw [scriptActions, scriptLines_append, List.filterMap_append, List.filterMap_map]
  rfl

/-! ### What is reported -/

/-- The diagnostics about the lines of a script, without the summary. -/
def lineReports (text : String) : Diagnostics :=
  (scriptLines text).flatMap fun line => (checkLine known line).map (Finding.diagnostic script)

theorem lineReports_append (a b : String) :
    lineReports script known (a ++ "\n" ++ b)
      = lineReports script known a
        ++ (lineReports script known b).map (Diagnostic.shift (a.toList.count '\n' + 1)) := by
  rw [lineReports, scriptLines_append, List.flatMap_append, List.flatMap_map, lineReports,
    lineReports, List.map_flatMap]
  congr 1
  apply List.flatMap_congr
  intro line _
  rw [checkLine_shift, List.map_map, List.map_map]
  apply List.map_congr_left
  intro finding _
  exact diagnostic_shift script _ finding

/-- What is reported about a line is a warning or an error. -/
theorem warn_le_level_of_mem {text : String} {d : Diagnostic}
    (h : d ∈ lineReports script known text) : Level.warn ≤ d.level := by
  obtain ⟨line, -, hline⟩ := List.mem_flatMap.mp h
  obtain ⟨finding, hfinding, rfl⟩ := List.mem_map.mp hline
  have hlevel := (lineFindings_checkLine known line).level_ne_info finding hfinding
  show Level.warn ≤ finding.level
  cases hcase : finding.level with
  | info => exact absurd hcase hlevel
  | warn => decide
  | error => decide

theorem checkScript_eq_lineReports_append (text : String) :
    checkScript script text known
      = lineReports script known text
        ++ [summary script ((scriptLines text).countP Line.isAction)] := by
  rw [checkScript, findings, List.map_append, List.map_flatMap]
  rfl

/-- The warnings and errors about a script are those about its lines. -/
theorem atLeast_warn_checkScript (text : String) :
    (checkScript script text known).atLeast .warn = lineReports script known text := by
  have hlines : (lineReports script known text).filter (fun d => Level.warn ≤ d.level)
      = lineReports script known text :=
    List.filter_eq_self.mpr fun _ hd => decide_eq_true (warn_le_level_of_mem script known hd)
  rw [checkScript_eq_lineReports_append, Diagnostics.atLeast, List.filter_append, hlines]
  exact List.append_nil _

/-! ### Both together -/

/-- **Two scripts one after the other** are read, checked and counted one after the other: the lines
of the second have moved down and are otherwise as they were, and so are the warnings and errors
about them; the numbers of action lines in the summaries add up, and so does the usage, action by
action. -/
theorem script_append (a b : String) :
    scriptLines (a ++ "\n" ++ b)
        = scriptLines a ++ (scriptLines b).map (Line.shift (a.toList.count '\n' + 1)) ∧
    (∀ script known,
      (checkScript script (a ++ "\n" ++ b) known).atLeast .warn
          = (checkScript script a known).atLeast .warn
            ++ ((checkScript script b known).atLeast .warn).map
              (Diagnostic.shift (a.toList.count '\n' + 1)) ∧
        ∃ m n,
          (checkScript script a known).filter (·.level = .info) = [summary script m] ∧
          (checkScript script b known).filter (·.level = .info) = [summary script n] ∧
          (checkScript script (a ++ "\n" ++ b) known).filter (·.level = .info)
            = [summary script (m + n)]) ∧
    ∀ action, (scriptUsage (a ++ "\n" ++ b)).find? action
      = Option.merge (· + ·) ((scriptUsage a).find? action) ((scriptUsage b).find? action) := by
  refine ⟨scriptLines_append a b, fun script known => ⟨?_, ?_⟩, fun action => ?_⟩
  · rw [atLeast_warn_checkScript, atLeast_warn_checkScript, atLeast_warn_checkScript,
      lineReports_append]
  · refine ⟨_, _, filter_info_checkScript script a known, filter_info_checkScript script b known, ?_⟩
    rw [filter_info_checkScript, countP_isAction_append]
    rfl
  · rw [scriptUsage_eq_tally, scriptUsage_eq_tally, scriptUsage_eq_tally, scriptActions_append,
      Usage.find?_tally_append]

/-- A text that ends in a line end leaves a blank line, and so does one that begins with one. -/
example : scriptLines ("<a>\n" ++ "\n" ++ "\n<b>") =
    [⟨.action, 1, "<a>"⟩, ⟨.action, 4, "<b>"⟩] := by decide +kernel

end DialogueScript
