/-
# The lines of a raw text

What a script consists of, said of its characters alone.  A line of a text is a stretch of it between
two line ends, and its number is one more than the number of line ends before it (`PieceAt`).
`TrimsTo line core` says that `core` is the line without the white space at its ends, and
`ActionAt text number raw` that the line with this number, trimmed, is `raw` and stands between the
delimiters.

Reading a script finds exactly these lines: `mem_scriptLines` for all of them, and for the action
lines, listed with their numbers by `actionLines`, `mem_actionLines`.
-/
import Mathlib.Data.List.TakeWhile
import DialogueScript.Proofs.Text.Pieces
import DialogueScript.Script.Line

namespace DialogueScript

/-! ### Trimming -/

/-- `core` is what is left of a line without the white space at both of its ends. -/
def TrimsTo (line core : List Char) : Prop :=
  ∃ before after, line = before ++ core ++ after ∧
    (∀ c ∈ before, isBlank c = true) ∧ (∀ c ∈ after, isBlank c = true) ∧
    (∀ c ∈ core.head?, isBlank c = false) ∧ (∀ c ∈ core.getLast?, isBlank c = false)

theorem dropWhile_isBlank_append {blanks rest : List Char} (hblanks : ∀ c ∈ blanks, isBlank c = true)
    (hrest : ∀ c ∈ rest.head?, isBlank c = false) :
    (blanks ++ rest).dropWhile isBlank = rest := by
  rw [List.dropWhile_append_of_pos hblanks]
  cases rest with
  | nil => rfl
  | cons c rest =>
    apply List.dropWhile_cons_of_neg
    simp [hrest c rfl]

/-- Blanks behind a line that does not end in one are what trimming its end removes. -/
theorem trimEnd_append {core blanks : List Char} (hblanks : ∀ c ∈ blanks, isBlank c = true)
    (hcore : ∀ c ∈ core.getLast?, isBlank c = false) : trimEnd (core ++ blanks) = core := by
  have hreverse : (blanks.reverse ++ core.reverse).dropWhile isBlank = core.reverse := by
    apply dropWhile_isBlank_append
    · intro c hc
      exact hblanks c (List.mem_reverse.mp hc)
    · intro c hc
      rw [List.head?_reverse] at hc
      exact hcore c hc
  rw [trimEnd, List.reverse_append, hreverse, List.reverse_reverse]

/-- **Trimming is determined by what it removes.** -/
theorem trimsTo_iff {line core : List Char} : TrimsTo line core ↔ core = trim line := by
  constructor
  · rintro ⟨before, after, rfl, hbefore, hafter, hhead, hlast⟩
    rw [trim, List.append_assoc]
    cases core with
    | nil =>
      -- the whole line is blank, and nothing is left of it
      have hblank : ∀ c ∈ before ++ ([] ++ after), isBlank c = true := by
        intro c hc
        rcases List.mem_append.mp hc with hc | hc
        · exact hbefore c hc
        · exact hafter c hc
      rw [List.dropWhile_eq_nil_iff.mpr hblank]
      rfl
    | cons c core =>
      rw [dropWhile_isBlank_append hbefore, trimEnd_append hafter hlast]
      intro d hd
      exact hhead d hd
  · rintro rfl
    obtain ⟨before, after, hline, hbefore, hafter⟩ := exists_blank_append_trim line
    exact ⟨before, after, hline, hbefore, hafter, head?_trim line, getLast?_trim line⟩

/-- There is nothing to trim where no white space stands at the ends. -/
theorem trim_eq_self {line : List Char} (hhead : ∀ c ∈ line.head?, isBlank c = false)
    (hlast : ∀ c ∈ line.getLast?, isBlank c = false) : trim line = line := by
  have htrim : TrimsTo line line := ⟨[], [], by simp, by simp, by simp, hhead, hlast⟩
  exact (trimsTo_iff.mp htrim).symm

/-! ### Delimiters -/

/-- A text with both delimiters at its ends has something, if only nothing, between them. -/
theorem eq_delimited_of_ends {raw : List Char} (hhead : raw.head? = some '<')
    (hlast : raw.getLast? = some '>') : ∃ middle, raw = '<' :: (middle ++ ['>']) := by
  obtain ⟨rest, rfl⟩ := List.head?_eq_some_iff.mp hhead
  -- the rest is not empty, for the delimiters differ
  cases rest with
  | nil => simp at hlast
  | cons c rest =>
    rw [List.getLast?_cons_cons] at hlast
    obtain ⟨middle, hmiddle⟩ := List.getLast?_eq_some_iff.mp hlast
    exact ⟨middle, congrArg _ hmiddle⟩

theorem two_le_utf8ByteSize_of_ends {raw : String} (hhead : raw.toList.head? = some '<')
    (hlast : raw.toList.getLast? = some '>') : 2 ≤ raw.utf8ByteSize := by
  obtain ⟨middle, hmiddle⟩ := eq_delimited_of_ends hhead hlast
  have hraw : raw = "<" ++ String.ofList middle ++ ">" := by
    apply String.toList_inj.mp
    simp [hmiddle]
  have hsize : raw.utf8ByteSize = 1 + (String.ofList middle).utf8ByteSize + 1 := by
    rw [hraw, String.utf8ByteSize_append, String.utf8ByteSize_append]
    rfl
  omega

theorem two_le_length_of_ends {raw : String} (hhead : raw.toList.head? = some '<')
    (hlast : raw.toList.getLast? = some '>') : 2 ≤ raw.length := by
  obtain ⟨middle, hmiddle⟩ := eq_delimited_of_ends hhead hlast
  rw [← String.length_toList, hmiddle]
  simp

/-- A line that both delimiters stand in is long enough for them. -/
theorem isDelimited_iff {line : List Char} :
    isDelimited line = true ↔ line.head? = some '<' ∧ line.getLast? = some '>' := by
  rw [isDelimited, Bool.and_eq_true, Bool.and_eq_true, decide_eq_true_iff, beq_iff_eq, beq_iff_eq]
  constructor
  · rintro ⟨⟨-, hhead⟩, hlast⟩
    exact ⟨hhead, hlast⟩
  · rintro ⟨hhead, hlast⟩
    refine ⟨⟨two_le_utf8ByteSize_of_ends ?_ ?_, hhead⟩, hlast⟩
    · rwa [String.toList_ofList]
    · rwa [String.toList_ofList]

/-! ### The lines of a script -/

/-- What a segment holds: its trimmed text under its number, unless that is empty, and an action
line or dialogue as it is delimited or not. -/
theorem ofSegment?_eq_some_iff {number : Nat} {segment : List Char} {line : Line} :
    Line.ofSegment? number segment = some line ↔
      trim segment ≠ [] ∧ line.number = number ∧ line.text.toList = trim segment ∧
        line.kind = if isDelimited (trim segment) then .action else .dialogue := by
  obtain ⟨kind, number', text⟩ := line
  simp only [Line.ofSegment?]
  by_cases hempty : trim segment = []
  · simp [hempty]
  · simp only [hempty, if_false, Option.some.injEq, Line.mk.injEq]
    rw [← String.toList_inj, String.toList_ofList]
    constructor
    · rintro ⟨rfl, rfl, htext⟩
      exact ⟨hempty, rfl, htext.symm, rfl⟩
    · rintro ⟨-, rfl, htext, rfl⟩
      exact ⟨rfl, rfl, htext.symm⟩

/-- A line read from a script is a line of its text, and has its number. -/
theorem mem_scriptLines {text : String} {line : Line} :
    line ∈ scriptLines text ↔
      ∃ segment, PieceAt '\n' text.toList line.number segment ∧
        Line.ofSegment? line.number segment = some line := by
  rw [scriptLines, List.mem_filterMap]
  constructor
  · rintro ⟨⟨segment, number⟩, hmem, hline⟩
    obtain rfl := (ofSegment?_eq_some_iff.mp hline).2.1
    exact ⟨segment, mem_zipIdx_splitOn.mp hmem, hline⟩
  · rintro ⟨segment, hsegment, hline⟩
    exact ⟨(segment, line.number), mem_zipIdx_splitOn.mpr hsegment, hline⟩

/-- The numbers of the lines of a script increase. -/
theorem pairwise_scriptLines (text : String) :
    (scriptLines text).Pairwise fun a b => a.number < b.number := by
  apply (pairwise_zipIdx (text.toList.splitOn '\n') 1).filterMap
  intro a b hab line hline line' hline'
  rw [(ofSegment?_eq_some_iff.mp hline).2.1, (ofSegment?_eq_some_iff.mp hline').2.1]
  exact hab

/-! ### The action lines of a script -/

/-- The line of a text with this number is `raw` between white space, and `raw` is an action line:
it starts with `<`, ends with `>`, and has at least two bytes. -/
def ActionAt (text : String) (number : Nat) (raw : String) : Prop :=
  ∃ segment, PieceAt '\n' text.toList number segment ∧ TrimsTo segment raw.toList ∧
    raw.toList.head? = some '<' ∧ raw.toList.getLast? = some '>' ∧ 2 ≤ raw.utf8ByteSize

/-- The action lines of a script with their numbers. -/
def actionLines (text : String) : List (Nat × String) :=
  ((scriptLines text).filter Line.isAction).map fun line => (line.number, line.text)

/-- **Reading finds the action lines of the raw text.** -/
theorem mem_actionLines {text : String} {number : Nat} {raw : String} :
    (number, raw) ∈ actionLines text ↔ ActionAt text number raw := by
  rw [actionLines, List.mem_map]
  constructor
  · rintro ⟨⟨kind, number', raw'⟩, hmem, heq⟩
    obtain ⟨rfl, rfl⟩ := Prod.mk.inj heq
    obtain ⟨hline, haction⟩ := List.mem_filter.mp hmem
    obtain ⟨segment, hsegment, hread⟩ := mem_scriptLines.mp hline
    obtain ⟨-, -, htext, hkind⟩ := ofSegment?_eq_some_iff.mp hread
    have hdelimited : isDelimited (trim segment) = true := by
      by_contra hnot
      obtain rfl : kind = .dialogue := hkind.trans (if_neg hnot)
      cases haction
    obtain ⟨hhead, hlast⟩ := isDelimited_iff.mp hdelimited
    rw [← htext] at hhead hlast
    exact ⟨segment, hsegment, trimsTo_iff.mpr htext, hhead, hlast,
      two_le_utf8ByteSize_of_ends hhead hlast⟩
  · rintro ⟨segment, hsegment, htrim, hhead, hlast, -⟩
    have htext := trimsTo_iff.mp htrim
    refine ⟨⟨.action, number, raw⟩, List.mem_filter.mpr ⟨?_, rfl⟩, rfl⟩
    apply mem_scriptLines.mpr
    refine ⟨segment, hsegment, ofSegment?_eq_some_iff.mpr ⟨?_, rfl, htext, ?_⟩⟩
    · intro hempty
      rw [htext, hempty] at hhead
      cases hhead
    · rw [htext] at hhead hlast
      rw [if_pos (isDelimited_iff.mpr ⟨hhead, hlast⟩)]

/-- The numbers of the action lines increase. -/
theorem pairwise_actionLines (text : String) :
    (actionLines text).Pairwise fun a b => a.1 < b.1 :=
  List.pairwise_map.mpr ((pairwise_scriptLines text).filter _)

theorem length_actionLines (text : String) :
    (actionLines text).length = (scriptLines text).countP Line.isAction := by
  rw [actionLines, List.length_map, List.countP_eq_length_filter]

/-- What dialogue adds nothing to is made up by the action lines alone. -/
theorem flatMap_scriptLines {α : Type} (text : String) (f : Line → List α)
    (hdialogue : ∀ line, line.isAction = false → f line = []) :
    (scriptLines text).flatMap f
      = (actionLines text).flatMap fun (number, raw) => f ⟨.action, number, raw⟩ := by
  rw [actionLines]
  induction scriptLines text with
  | nil => rfl
  | cons line lines ih =>
    rw [List.flatMap_cons, ih]
    rcases haction : line.isAction with - | -
    · rw [hdialogue line haction, List.filter_cons_of_neg (by simp [haction]), List.nil_append]
    · obtain ⟨kind, number, raw⟩ := line
      obtain rfl : kind = .action := by simpa [Line.isAction] using haction
      rw [List.filter_cons_of_pos haction, List.map_cons, List.flatMap_cons]

end DialogueScript
