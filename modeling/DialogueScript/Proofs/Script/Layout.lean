/-
# Layout and dialogue do not matter to a check

A script can be laid out anew: its line ends may become `\r\n`, a line end may be put at the end of
the text, and white space may be put at the ends of its lines (`LayoutEdit`).  It is read as before.
Its dialogue can be written anew, too: any line that is not an action line may become any other such
line (`DialogueEdit`).  Then it has the same action lines, with the same numbers, and nothing else
is checked or counted.

An edit happens in one line, and what stands above and below that line is read without looking at it
(`exists_scriptLines_eq`).  So it is enough to compare what the line itself is read as, before and
after.  Any number of edits, made or taken back, then follow by going through them one by one.
-/
import Mathlib.Logic.Relation
import DialogueScript.Proofs.Script.Concatenation
import DialogueScript.Proofs.Script.Recognition

namespace DialogueScript

/-! ### One line of a text -/

/-- Between `before` and `after`, `line` is a whole line of the text that they make up. -/
structure WholeLine (before line after : String) : Prop where
  newline_not_mem : '\n' ∉ line.toList
  starts : before.toList = [] ∨ before.toList.getLast? = some '\n'
  ends : after.toList = [] ∨ after.toList.head? = some '\n'

/-- **A line is read by itself**: it has its number from what stands before it, and what it is does
not change how the lines above and below it are read. -/
theorem exists_scriptLines_eq {before after : String}
    (hstarts : before.toList = [] ∨ before.toList.getLast? = some '\n')
    (hends : after.toList = [] ∨ after.toList.head? = some '\n') :
    ∃ above below number, ∀ line, '\n' ∉ line.toList →
      scriptLines (before ++ line ++ after)
        = above ++ (Line.ofSegment? number line.toList).toList ++ below := by
  obtain ⟨front, back, -, hcut⟩ := exists_splitOn_of_bounds hstarts hends
  let read : List Char × Nat → Option Line := fun segment => Line.ofSegment? segment.2 segment.1
  let number := 1 + front.length
  refine ⟨(front.zipIdx 1).filterMap read, (back.zipIdx (number + 1)).filterMap read, number,
    fun line hline => ?_⟩
  have hsegments : numberedSegments (before ++ line ++ after)
      = front.zipIdx 1 ++ (line.toList, number) :: back.zipIdx (number + 1) := by
    rw [numberedSegments, String.toList_append, String.toList_append, hcut _ hline,
      List.zipIdx_append, List.zipIdx_cons]
  show (numberedSegments (before ++ line ++ after)).filterMap read = _
  rw [hsegments, List.filterMap_append, List.filterMap_cons, List.append_assoc]
  show _ = _ ++ ((read (line.toList, number)).toList ++ _)
  rcases read (line.toList, number) with - | line'
  · rfl
  · rfl

/-- A line that is trimmed to the same text may stand in place of another. -/
theorem WholeLine.scriptLines_eq {before line line' after : String}
    (h : WholeLine before line after) (h' : '\n' ∉ line'.toList)
    (htrim : trim line.toList = trim line'.toList) :
    scriptLines (before ++ line ++ after) = scriptLines (before ++ line' ++ after) := by
  obtain ⟨above, below, number, hread⟩ := exists_scriptLines_eq h.starts h.ends
  rw [hread line h.newline_not_mem, hread line' h', Line.ofSegment?, Line.ofSegment?, htrim]

/-- A text has a last line, if only an empty one. -/
theorem exists_lastLine (text : List Char) : ∃ before line, text = before ++ line ∧ '\n' ∉ line ∧
    (before = [] ∨ before.getLast? = some '\n') := by
  by_cases h : '\n' ∈ text
  · -- the last line end is the first one from behind
    obtain ⟨line, before, hreverse, hline⟩ := List.eq_append_cons_of_mem (List.mem_reverse.mpr h)
    refine ⟨before.reverse ++ ['\n'], line.reverse, ?_, mt List.mem_reverse.mp hline,
      .inr List.getLast?_concat⟩
    rw [← List.reverse_reverse text, hreverse]
    simp
  · exact ⟨[], text, rfl, h, .inl rfl⟩

/-! ### Layout -/

/-- White space that stays on its line. -/
def IsMargin (text : String) : Prop :=
  ∀ c ∈ text.toList, isBlank c = true ∧ c ≠ '\n'

/-- One change of the layout of a text. -/
inductive LayoutEdit : String → String → Prop
  /-- A line end is written with a carriage return. -/
  | carriageReturn (before after : String) :
      LayoutEdit (before ++ "\n" ++ after) (before ++ "\r\n" ++ after)
  /-- A line end is put at the end of the text. -/
  | lastLineEnd (text : String) : LayoutEdit text (text ++ "\n")
  /-- White space is put at either end of a line. -/
  | margins {before line after margin margin' : String} : WholeLine before line after →
      IsMargin margin → IsMargin margin' →
      LayoutEdit (before ++ line ++ after) (before ++ (margin ++ line ++ margin') ++ after)

theorem trim_margins {margin margin' : String} (hmargin : IsMargin margin)
    (hmargin' : IsMargin margin') (line : String) :
    trim (margin ++ line ++ margin').toList = trim line.toList := by
  rw [String.toList_append, String.toList_append, trim_append_blanks fun c hc => (hmargin' c hc).1,
    trim, List.dropWhile_append_of_pos fun c hc => (hmargin c hc).1, ← trim]

theorem newline_not_mem_margins {line margin margin' : String} (hline : '\n' ∉ line.toList)
    (hmargin : IsMargin margin) (hmargin' : IsMargin margin') :
    '\n' ∉ (margin ++ line ++ margin').toList := by
  simp only [String.toList_append, List.mem_append, not_or]
  exact ⟨⟨fun h => (hmargin _ h).2 rfl, hline⟩, fun h => (hmargin' _ h).2 rfl⟩

theorem isMargin_empty : IsMargin "" := by
  simp [IsMargin]

theorem isMargin_return : IsMargin "\r" := by
  simp [IsMargin, isBlank, blankRanges]

/-- A line may have any margins. -/
theorem WholeLine.scriptLines_margins {before line after margin margin' : String}
    (h : WholeLine before line after) (hmargin : IsMargin margin) (hmargin' : IsMargin margin') :
    scriptLines (before ++ line ++ after)
      = scriptLines (before ++ (margin ++ line ++ margin') ++ after) :=
  h.scriptLines_eq (newline_not_mem_margins h.newline_not_mem hmargin hmargin')
    (trim_margins hmargin hmargin' line).symm

/-- A carriage return before a line end is a margin of the line that ends there. -/
theorem scriptLines_carriageReturn (before after : String) :
    scriptLines (before ++ "\n" ++ after) = scriptLines (before ++ "\r\n" ++ after) := by
  obtain ⟨front, line, hbefore, hline, hstarts⟩ := exists_lastLine before.toList
  obtain rfl : before = String.ofList front ++ String.ofList line := by
    rw [← String.toList_inj, hbefore]
    simp
  have hwhole : WholeLine (String.ofList front) (String.ofList line) ("\n" ++ after) :=
    ⟨by simpa using hline, by simpa using hstarts, .inr (by simp)⟩
  have hends : "\r\n" = "\r" ++ "\n" := by decide
  have hmargins := hwhole.scriptLines_margins isMargin_empty isMargin_return
  simpa only [hends, String.empty_append, String.append_assoc] using hmargins

/-- **A change of layout is not seen** when the script is read. -/
theorem LayoutEdit.scriptLines_eq {text text' : String} (h : LayoutEdit text text') :
    scriptLines text = scriptLines text' := by
  cases h with
  | carriageReturn before after => exact scriptLines_carriageReturn before after
  | lastLineEnd =>
    -- the line behind the last line end is blank
    have happend := scriptLines_append text ""
    rw [String.append_empty] at happend
    rw [happend]
    exact (List.append_nil _).symm
  | margins hline hmargin hmargin' => exact hline.scriptLines_margins hmargin hmargin'

/-- Whatever is the same before and after one edit is the same before and after any number of
edits. -/
theorem eq_of_edits {α : Type} {edit : String → String → Prop} {f : String → α}
    (hedit : ∀ text text', edit text text' → f text = f text') {text text' : String}
    (h : Relation.EqvGen edit text text') : f text = f text' := by
  induction h with
  | rel text text' h => exact hedit text text' h
  | refl text => rfl
  | symm text text' _ ih => exact ih.symm
  | trans text text' text'' _ _ ih ih' => exact ih.trans ih'

/-! ### Dialogue -/

/-- A line that is an action line, apart from white space at its ends. -/
def IsActionLine (line : String) : Prop :=
  ∃ raw : String, TrimsTo line.toList raw.toList ∧ raw.toList.head? = some '<' ∧
    raw.toList.getLast? = some '>' ∧ 2 ≤ raw.utf8ByteSize

/-- One change of the dialogue of a text: a whole line that is blank or dialogue becomes another. -/
inductive DialogueEdit : String → String → Prop
  | reword {before line line' after : String} : WholeLine before line after →
      '\n' ∉ line'.toList → ¬ IsActionLine line → ¬ IsActionLine line' →
      DialogueEdit (before ++ line ++ after) (before ++ line' ++ after)

theorem isActionLine_iff {line : String} :
    IsActionLine line ↔ isDelimited (trim line.toList) = true := by
  rw [isDelimited_iff]
  constructor
  · rintro ⟨raw, htrim, hhead, hlast, -⟩
    rw [← trimsTo_iff.mp htrim]
    exact ⟨hhead, hlast⟩
  · rintro ⟨hhead, hlast⟩
    have htext := String.toList_ofList (l := trim line.toList)
    rw [← htext] at hhead hlast
    exact ⟨_, trimsTo_iff.mpr htext, hhead, hlast, two_le_utf8ByteSize_of_ends hhead hlast⟩

/-- Nothing is checked of a segment that is not an action line. -/
theorem filter_isAction_ofSegment? {line : String} (h : ¬ IsActionLine line) (number : Nat) :
    (Line.ofSegment? number line.toList).toList.filter Line.isAction = [] := by
  rw [List.filter_eq_nil_iff]
  intro read hmem haction
  obtain ⟨-, -, -, hkind⟩ := ofSegment?_eq_some_iff.mp (Option.mem_toList.mp hmem)
  rw [if_neg (mt isActionLine_iff.mpr h)] at hkind
  rw [Line.isAction, hkind] at haction
  cases haction

/-- **A change of dialogue keeps the action lines**, and their numbers. -/
theorem DialogueEdit.actionLines_eq {text text' : String} (h : DialogueEdit text text') :
    actionLines text = actionLines text' := by
  cases h with
  | reword hline hnewline haction haction' =>
    obtain ⟨above, below, number, hread⟩ := exists_scriptLines_eq hline.starts hline.ends
    rw [actionLines, actionLines, hread _ hline.newline_not_mem, hread _ hnewline]
    simp only [List.filter_append, filter_isAction_ofSegment? haction,
      filter_isAction_ofSegment? haction']

/-! ### Checks and usages -/

variable {text text' : String}

/-- A check looks at the action lines only. -/
theorem checkScript_eq_of_actionLines_eq (h : actionLines text = actionLines text')
    (script : String) (known : List String) :
    checkScript script text known = checkScript script text' known := by
  rw [checkScript_eq, checkScript_eq, h]

theorem scriptActions_eq (text : String) :
    scriptActions text = (actionLines text).flatMap fun line =>
      (Line.action? ⟨.action, line.1, line.2⟩).toList := by
  rw [scriptActions, List.filterMap_eq_flatMap_toList]
  apply flatMap_scriptLines
  rintro ⟨kind, number, raw⟩ hkind
  cases kind with
  | action => cases hkind
  | dialogue => rfl

/-- And so does a usage. -/
theorem scriptUsage_eq_of_actionLines_eq (h : actionLines text = actionLines text') :
    scriptUsage text = scriptUsage text' := by
  rw [scriptUsage_eq_tally, scriptUsage_eq_tally, scriptActions_eq, scriptActions_eq, h]

/-- **Layout and dialogue do not matter.**  However often the layout of a script is changed, forth
and back, the script is read, checked and counted as before; and if its dialogue is changed as well,
it is still checked and counted as before, under the same numbers of lines. -/
theorem script_unchanged_by_edits :
    (∀ text text', Relation.EqvGen LayoutEdit text text' →
      scriptLines text = scriptLines text' ∧
      (∀ script known, checkScript script text known = checkScript script text' known) ∧
      scriptUsage text = scriptUsage text') ∧
    ∀ text text',
      Relation.EqvGen (fun a b => LayoutEdit a b ∨ DialogueEdit a b) text text' →
      (∀ script known, checkScript script text known = checkScript script text' known) ∧
      scriptUsage text = scriptUsage text' := by
  have hlines : ∀ a b, LayoutEdit a b → scriptLines a = scriptLines b :=
    fun a b h => h.scriptLines_eq
  have hactions : ∀ a b, LayoutEdit a b ∨ DialogueEdit a b → actionLines a = actionLines b := by
    rintro a b (h | h)
    · rw [actionLines, actionLines, hlines a b h]
    · exact h.actionLines_eq
  refine ⟨fun text text' h => ?_, fun text text' h => ?_⟩
  · have hsame := eq_of_edits (fun a b hedit => hactions a b (.inl hedit)) h
    exact ⟨eq_of_edits hlines h, checkScript_eq_of_actionLines_eq hsame,
      scriptUsage_eq_of_actionLines_eq hsame⟩
  · have hsame := eq_of_edits hactions h
    exact ⟨checkScript_eq_of_actionLines_eq hsame, scriptUsage_eq_of_actionLines_eq hsame⟩

/-- The law at a script with a line end that loses its carriage return, a line that is indented, and
a line of dialogue that becomes half an action line. -/
theorem script_unchanged_by_edits_of_three :
    let text := "<a>\r\nx\n<b:,>"
    let text' := "<a>\nx\n\t<b:,>\u3000"
    let text'' := "<a>\n<y\n\t<b:,>\u3000"
    Relation.EqvGen LayoutEdit text text' ∧
      Relation.EqvGen (fun a b => LayoutEdit a b ∨ DialogueEdit a b) text' text'' ∧
      scriptLines text = scriptLines text' ∧
      checkScript "s" text' ["a"] = checkScript "s" text'' ["a"] ∧
      scriptUsage text' = scriptUsage text'' := by
  intro text text' text''
  have hreturn : LayoutEdit "<a>\nx\n<b:,>" text := by
    simpa using LayoutEdit.carriageReturn "<a>" "x\n<b:,>"
  have hindented : LayoutEdit "<a>\nx\n<b:,>" text' := by
    have hwhole : WholeLine "<a>\nx\n" "<b:,>" "" := ⟨by decide, .inr rfl, .inl rfl⟩
    have htab : IsMargin "\t" := by simp [IsMargin, isBlank, blankRanges]
    have hwide : IsMargin "\u3000" := by simp [IsMargin, isBlank, blankRanges]
    simpa using LayoutEdit.margins hwhole htab hwide
  have hreworded : DialogueEdit text' text'' := by
    have hwhole : WholeLine "<a>\n" "x" "\n\t<b:,>\u3000" := ⟨by decide, .inr rfl, .inr rfl⟩
    have hword : ¬ IsActionLine "x" := by
      rw [isActionLine_iff]
      decide
    have hhalf : ¬ IsActionLine "<y" := by
      rw [isActionLine_iff]
      decide
    have hedit := DialogueEdit.reword hwhole (by decide) hword hhalf
    simpa using hedit
  have hlayout : Relation.EqvGen LayoutEdit text text' :=
    .trans _ _ _ (.symm _ _ (.rel _ _ hreturn)) (.rel _ _ hindented)
  have hdialogue : Relation.EqvGen (fun a b => LayoutEdit a b ∨ DialogueEdit a b) text' text'' :=
    .rel _ _ (.inr hreworded)
  obtain ⟨hread, hchecked⟩ := script_unchanged_by_edits
  obtain ⟨hcheck, husage⟩ := hchecked _ _ hdialogue
  exact ⟨hlayout, hdialogue, (hread _ _ hlayout).1, hcheck "s" ["a"], husage⟩

end DialogueScript
