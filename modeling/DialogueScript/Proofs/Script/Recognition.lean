/-
# What a script is read as

Every segment of a text between line ends that is not blank is read as one line, and nothing else
is.  `Recognized segment line` says what the line has of its segment: the text without the white
space at its ends, and the kind that its delimiters give it.  It also says when the line can be
parsed: the delimiters of an action line are two characters and no colons, so the only thing that
may be wrong with it is a second colon.

`scriptLines_recognized` sets the segments and the lines side by side, in order and under the same
numbers.  A text may also be cut into lines with more care (`endedLines`): a carriage return before
`\n` belongs to the line end, and behind the last line end there is no further line if there is
nothing.  Trimming and leaving out blank lines make up for both, so nothing else is read then.
-/
import Mathlib.Data.List.Forall2
import DialogueScript.Proofs.ActionLine.Grammar
import DialogueScript.Proofs.Script.Lines

namespace DialogueScript

open ActionLine (inside parse_eq)

/-! ### Blank segments -/

theorem mem_of_mem_trim {segment : List Char} {c : Char} (h : c ∈ trim segment) : c ∈ segment := by
  obtain ⟨before, after, hsegment, -⟩ := exists_blank_append_trim segment
  rw [hsegment]
  exact List.mem_append_left _ (List.mem_append_right _ h)

/-- Trimming leaves nothing exactly of a line that is all white space. -/
theorem trim_eq_nil_iff {segment : List Char} :
    trim segment = [] ↔ ∀ c ∈ segment, isBlank c = true := by
  constructor
  · intro hempty
    obtain ⟨before, after, hsegment, hbefore, hafter⟩ := exists_blank_append_trim segment
    rw [hempty, List.append_nil] at hsegment
    rw [hsegment]
    intro c hc
    exact (List.mem_append.mp hc).elim (hbefore c) (hafter c)
  · intro hblank
    have htrim : TrimsTo segment [] := ⟨segment, [], by simp, hblank, by simp, by simp, by simp⟩
    exact (trimsTo_iff.mp htrim).symm

theorem isSome_ofSegment?_iff {number : Nat} {segment : List Char} :
    (Line.ofSegment? number segment).isSome = true ↔ ∃ c ∈ segment, isBlank c = false := by
  have hnot : (∃ c ∈ segment, isBlank c = false) ↔ trim segment ≠ [] := by
    rw [Ne, trim_eq_nil_iff]
    simp
  rw [hnot, Line.ofSegment?]
  by_cases hempty : trim segment = []
  · simp [hempty]
  · simp [hempty]

/-! ### Line ends -/

/-- White space at the end of a line is trimmed with the rest. -/
theorem trim_append_blanks {segment blanks : List Char} (hblanks : ∀ c ∈ blanks, isBlank c = true) :
    trim (segment ++ blanks) = trim segment := by
  obtain ⟨before, after, hsegment, hbefore, hafter⟩ := exists_blank_append_trim segment
  have htrim : TrimsTo (segment ++ blanks) (trim segment) := by
    refine ⟨before, after ++ blanks, ?_, hbefore, ?_, head?_trim segment, getLast?_trim segment⟩
    · rw [← List.append_assoc, ← hsegment]
    · intro c hc
      exact (List.mem_append.mp hc).elim (hafter c) (hblanks c)
  exact (trimsTo_iff.mp htrim).symm

/-- A line without the carriage return at its end, if it has one there. -/
def dropReturn (line : List Char) : List Char :=
  if line.getLast? = some '\r' then line.dropLast else line

/-- The lines of a text that are ended by `\n` or `\r\n`, and the text behind the last line end, if
there is any. -/
def endedLines (text : List Char) : List (List Char) :=
  let segments := text.splitOn '\n'
  segments.dropLast.map dropReturn ++ segments.getLast?.toList.filter (· ≠ [])

theorem trim_dropReturn (segment : List Char) : trim (dropReturn segment) = trim segment := by
  rw [dropReturn]
  split
  · next hlast =>
    obtain ⟨front, rfl⟩ := List.getLast?_eq_some_iff.mp hlast
    rw [List.dropLast_concat]
    refine (trim_append_blanks fun c hc => ?_).symm
    obtain rfl := List.mem_singleton.mp hc
    rfl
  · rfl

/-- **It does not matter how the line ends are taken away.** -/
theorem scriptLines_eq_endedLines (text : String) :
    scriptLines text = ((endedLines text.toList).zipIdx 1).filterMap fun (segment, number) =>
      Line.ofSegment? number segment := by
  obtain ⟨front, last, hsegments⟩ : ∃ front last, text.toList.splitOn '\n' = front ++ [last] :=
    ⟨_, _, (List.dropLast_append_getLast (List.splitOn_ne_nil '\n' text.toList)).symm⟩
  have hfront : (front.zipIdx 1).filterMap (fun (segment, number) =>
        Line.ofSegment? number segment)
      = ((front.map dropReturn).zipIdx 1).filterMap fun (segment, number) =>
        Line.ofSegment? number segment := by
    rw [List.zipIdx_map, List.filterMap_map]
    apply List.filterMap_congr
    rintro ⟨segment, number⟩ -
    simp only [Function.comp_apply, Prod.map_apply, id_eq, Line.ofSegment?, trim_dropReturn]
  simp only [scriptLines, numberedSegments, endedLines, hsegments, List.zipIdx_append,
    List.filterMap_append, List.dropLast_concat, List.getLast?_concat, Option.toList_some,
    List.length_map, hfront]
  -- an empty text behind the last line end is a blank line
  by_cases hlast : last = []
  · subst hlast
    rfl
  · rw [List.filter_cons_of_pos (by simpa using hlast), List.filter_nil]

/-! ### One line -/

/-- All colons of an action line stand inside, for its delimiters are none. -/
theorem count_inside_of_ends {raw : String} (hhead : raw.toList.head? = some '<')
    (hlast : raw.toList.getLast? = some '>') :
    (inside raw).count ':' = raw.toList.count ':' := by
  obtain ⟨middle, hmiddle⟩ := eq_delimited_of_ends hhead hlast
  rw [inside, hmiddle, List.tail_cons, List.dropLast_concat]
  simp

/-- An action line is never too short to be parsed; only a second colon prevents it. -/
theorem parse_fails_iff_of_ends {raw : String} (hhead : raw.toList.head? = some '<')
    (hlast : raw.toList.getLast? = some '>') :
    (∃ e, ActionLine.parse raw = .error e) ↔ 2 ≤ raw.toList.count ':' := by
  have hlength := two_le_length_of_ends hhead hlast
  rw [parse_eq, ← count_inside_of_ends hhead hlast]
  split
  · next h =>
    refine iff_of_false ?_ (Nat.not_le_of_lt (Nat.lt_succ_of_le h.2))
    rintro ⟨e, he⟩
    cases he
  · next h =>
    refine iff_of_true ⟨_, rfl⟩ (Nat.lt_of_not_le fun hcount => h ⟨hlength, hcount⟩)

/-- What a line of a script has of the segment that it was read from. -/
structure Recognized (segment : List Char) (line : Line) : Prop where
  /-- The text is the segment without the white space at its ends. -/
  trimsTo : TrimsTo segment line.text.toList
  text_ne_empty : line.text ≠ ""
  newline_not_mem : '\n' ∉ line.text.toList
  /-- An action line is delimited; any other line is dialogue. -/
  kind_eq_action_iff : line.kind = .action ↔ line.text.toList.head? = some '<' ∧
    line.text.toList.getLast? = some '>' ∧ 2 ≤ line.text.utf8ByteSize
  /-- Parsing an action line fails exactly for a second colon. -/
  parse_fails_iff : line.kind = .action →
    ((∃ e, line.parse? = some (.error e)) ↔ 2 ≤ line.text.toList.count ':')
  /-- Dialogue is not parsed. -/
  parse?_eq_none : line.kind = .dialogue → line.parse? = none

/-- **A segment is recognized by its ends.** -/
theorem recognized_of_ofSegment? {number : Nat} {segment : List Char} {line : Line}
    (hnewline : '\n' ∉ segment) (h : Line.ofSegment? number segment = some line) :
    Recognized segment line := by
  obtain ⟨kind, number', text⟩ := line
  obtain ⟨hne, -, htext, hkind⟩ := ofSegment?_eq_some_iff.mp h
  have hends : kind = .action ↔ text.toList.head? = some '<' ∧ text.toList.getLast? = some '>' := by
    rw [← isDelimited_iff, htext, show kind = _ from hkind]
    split <;> simp [*]
  constructor
  · exact trimsTo_iff.mpr htext
  · rintro rfl
    exact hne htext.symm
  · intro hmem
    rw [htext] at hmem
    exact hnewline (mem_of_mem_trim hmem)
  · rw [hends]
    constructor
    · rintro ⟨hhead, hlast⟩
      exact ⟨hhead, hlast, two_le_utf8ByteSize_of_ends hhead hlast⟩
    · rintro ⟨hhead, hlast, -⟩
      exact ⟨hhead, hlast⟩
  · intro haction
    obtain ⟨hhead, hlast⟩ := hends.mp haction
    obtain rfl : kind = .action := haction
    simp only [Line.parse?, Option.some.injEq]
    exact parse_fails_iff_of_ends hhead hlast
  · intro hdialogue
    obtain rfl : kind = .dialogue := hdialogue
    rfl

/-! ### A whole script -/

/-- What a list is mapped to, entry by entry, where entries may be left out. -/
theorem forall₂_filterMap {α β : Type} (f : α → Option β) (list : List α) :
    List.Forall₂ (fun a b => f a = some b) (list.filter fun a => (f a).isSome)
      (list.filterMap f) := by
  induction list with
  | nil => exact .nil
  | cons a list ih =>
    rcases hfa : f a with - | b
    · rwa [List.filterMap_cons_none hfa, List.filter_cons_of_neg (by simp [hfa])]
    · rw [List.filterMap_cons_some hfa, List.filter_cons_of_pos (by simp [hfa])]
      exact .cons hfa ih

/-- **What a script is read as**: for the segments of its text between line ends that are not blank,
taken in the order of their numbers, one line each, under the same number.  So the numbers of the
lines increase.  Taking away the line ends with more care changes nothing. -/
theorem scriptLines_recognized (text : String) :
    (∃ segments : List (List Char × Nat),
      segments.Pairwise (fun a b => a.2 < b.2) ∧
      (∀ segment number, (segment, number) ∈ segments ↔
        PieceAt '\n' text.toList number segment ∧ ∃ c ∈ segment, isBlank c = false) ∧
      List.Forall₂ (fun segment line => line.number = segment.2 ∧ Recognized segment.1 line)
        segments (scriptLines text)) ∧
    (scriptLines text).Pairwise (fun a b => a.number < b.number) ∧
    scriptLines text = ((endedLines text.toList).zipIdx 1).filterMap fun (segment, number) =>
      Line.ofSegment? number segment := by
  let read : List Char × Nat → Option Line := fun segment => Line.ofSegment? segment.2 segment.1
  have hmem : ∀ segment number,
      (segment, number) ∈ (numberedSegments text).filter (fun entry => (read entry).isSome) ↔
        PieceAt '\n' text.toList number segment ∧ ∃ c ∈ segment, isBlank c = false := by
    intro segment number
    rw [List.mem_filter, isSome_ofSegment?_iff, numberedSegments, mem_zipIdx_splitOn]
  refine ⟨⟨_, (pairwise_zipIdx _ 1).filter _, hmem, ?_⟩, pairwise_scriptLines text,
    scriptLines_eq_endedLines text⟩
  -- each line belongs to the segment that it was read from, which has no line end in it
  have hnewline : ∀ entry ∈ (numberedSegments text).filter (fun entry => (read entry).isSome),
      '\n' ∉ entry.1 := by
    rintro ⟨segment, number⟩ hentry
    obtain ⟨⟨before, after, -, hsegment, -⟩, -⟩ := (hmem segment number).mp hentry
    exact hsegment
  have hread := (List.forall₂_and_left _ _).mpr
    ⟨hnewline, forall₂_filterMap read (numberedSegments text)⟩
  refine hread.imp ?_
  rintro ⟨segment, number⟩ line ⟨hsegment, hline⟩
  exact ⟨(ofSegment?_eq_some_iff.mp hline).2.1, recognized_of_ofSegment? hsegment hline⟩

/-- Only `\n` ends a line, whatever else stands there; blank lines are counted. -/
example : scriptLines "a\rb\u2028c\r\n\u0085\n <x:> \r" =
    [⟨.dialogue, 1, "a\rb\u2028c"⟩, ⟨.action, 3, "<x:>"⟩] := by decide +kernel

end DialogueScript
