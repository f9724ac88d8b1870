/-
# What an action line says

Between the first and the last character of a line stands its `inside`.  The text before the first
colon is the action, and the text behind it, cut at its commas, the parameters.

`Decomposes inside action parameters` states the grammar without any cutting: the action has no
colon, the parameters have neither colon nor comma, and written one after the other, with the
separators between them, they are the inside again.  `parse_eq` says what parsing computes, and
`parse_grammar` that it computes the decomposition: it succeeds exactly for a line of at least two
characters with at most one colon inside, and no other action and parameters decompose that inside.
-/
import Mathlib.Data.List.TakeWhile
import DialogueScript.ActionLine.Basic
import DialogueScript.Proofs.Text.Pieces

namespace DialogueScript

namespace ActionLine

/-! ### The parts of a line -/

/-- The text between the first and the last character of a line. -/
def inside (line : String) : List Char :=
  line.toList.tail.dropLast

/-- The text before the first colon; all of the inside if it has no colon. -/
def actionText (inside : List Char) : List Char :=
  inside.takeWhile (· != ':')

/-- The text behind the first colon, in which the parameters are listed. -/
def parameterText (inside : List Char) : List Char :=
  (inside.dropWhile (· != ':')).tail

theorem bne_colon_of_not_mem {text : List Char} (h : ':' ∉ text) : ∀ c ∈ text, (c != ':') = true :=
  fun _ hc => bne_iff_ne.mpr fun heq => h (heq ▸ hc)

theorem actionText_of_not_mem {inside : List Char} (h : ':' ∉ inside) :
    actionText inside = inside :=
  List.takeWhile_eq_self_iff.mpr (bne_colon_of_not_mem h)

theorem parameterText_of_not_mem {inside : List Char} (h : ':' ∉ inside) :
    parameterText inside = [] := by
  rw [parameterText, List.dropWhile_eq_nil_iff.mpr (bne_colon_of_not_mem h), List.tail_nil]

theorem actionText_append {action rest : List Char} (h : ':' ∉ action) :
    actionText (action ++ ':' :: rest) = action := by
  rw [actionText, List.takeWhile_append_of_pos (bne_colon_of_not_mem h)]
  simp

theorem parameterText_append {action rest : List Char} (h : ':' ∉ action) :
    parameterText (action ++ ':' :: rest) = rest := by
  rw [parameterText, List.dropWhile_append_of_pos (bne_colon_of_not_mem h)]
  simp

/-- Where there is a colon, it stands between the two parts. -/
theorem eq_append_of_mem {inside : List Char} (h : ':' ∈ inside) :
    inside = actionText inside ++ ':' :: parameterText inside ∧ ':' ∉ actionText inside := by
  obtain ⟨action, rest, rfl, haction⟩ := List.eq_append_cons_of_mem h
  rw [actionText_append haction, parameterText_append haction]
  exact ⟨rfl, haction⟩

theorem not_mem_actionText (inside : List Char) : ':' ∉ actionText inside := by
  by_cases h : ':' ∈ inside
  · exact (eq_append_of_mem h).2
  · rwa [actionText_of_not_mem h]

/-- The parameter text has one colon less than the inside. -/
theorem count_parameterText (inside : List Char) :
    (parameterText inside).count ':' = inside.count ':' - 1 := by
  by_cases h : ':' ∈ inside
  · obtain ⟨heq, haction⟩ := eq_append_of_mem h
    have htotal := congrArg (List.count ':') heq
    rw [List.count_append, List.count_eq_zero.mpr haction, List.count_cons_self] at htotal
    omega
  · rw [parameterText_of_not_mem h, List.count_eq_zero.mpr h, List.count_nil]

/-! ### What parsing computes -/

theorem interior?_toList (line : String) :
    interior? line.toList = if 2 ≤ line.length then some (inside line) else none := by
  rw [inside, ← String.length_toList]
  rcases line.toList with - | ⟨first, - | ⟨second, rest⟩⟩
  · rfl
  · rfl
  · exact (if_pos (by simp)).symm

/-- The inside of a line has an action and parameters unless it has a second colon.  Cutting an
empty parameter text gives one empty parameter, so the two cases of the definition agree. -/
theorem splitInterior_eq (inside : List Char) :
    splitInterior inside =
      if inside.count ':' ≤ 1 then
        some (actionText inside, (parameterText inside).splitOn ',')
      else none := by
  rw [splitInterior, actionSeparator, parameterSeparator]
  by_cases h : ':' ∈ inside
  · obtain ⟨heq, haction⟩ := eq_append_of_mem h
    have hcount := count_parameterText inside
    have hcolon := List.count_pos_iff.mpr h
    have hcut : inside.splitOn ':' = actionText inside :: (parameterText inside).splitOn ':' :=
      (congrArg (List.splitOn ':') heq).trans
        (List.splitOn_append_cons_self_of_not_mem haction _)
    rw [hcut]
    by_cases hsecond : ':' ∈ parameterText inside
    · -- a second colon cuts the rest in at least two pieces
      have hpos := List.count_pos_iff.mpr hsecond
      have hlength := length_splitOn ':' (parameterText inside)
      rw [if_neg (by omega)]
      rcases hpieces : (parameterText inside).splitOn ':' with - | ⟨p, - | ⟨q, rest⟩⟩
      · simp [hpieces] at hlength
      · simp only [hpieces, List.length_singleton] at hlength
        omega
      · rfl
    · have hzero := List.count_eq_zero.mpr hsecond
      rw [List.splitOn_eq_singleton hsecond, if_pos (by omega)]
  · rw [List.splitOn_eq_singleton h, List.count_eq_zero.mpr h, if_pos (Nat.zero_le 1),
      actionText_of_not_mem h, parameterText_of_not_mem h, List.splitOn_nil]

/-- **What parsing computes**: a line of at least two characters with at most one colon inside has
its action and its parameters read off the inside; any other line is malformed. -/
theorem parse_eq (line : String) :
    parse line =
      if 2 ≤ line.length ∧ (inside line).count ':' ≤ 1 then
        .ok ⟨String.ofList (actionText (inside line)),
          ((parameterText (inside line)).splitOn ',').map String.ofList, 0⟩
      else .error (.badSyntax line) := by
  rw [parse, interior?_toList]
  by_cases hlength : 2 ≤ line.length
  · rw [if_pos hlength, Option.bind_some, splitInterior_eq]
    by_cases hcount : (inside line).count ':' ≤ 1
    · rw [if_pos hcount, if_pos ⟨hlength, hcount⟩]
    · rw [if_neg hcount, if_neg fun h => hcount h.2]
  · rw [if_neg hlength, Option.bind_none, if_neg fun h => hlength h.1]

/-- Whatever the delimiters are, a comma in the action is kept, and one at the end makes an empty
parameter. -/
example : parse "「a,b:c,」" = .ok ⟨"a,b", ["c", ""], 0⟩ := by decide +kernel

/-- A line parses exactly if it has room for two delimiters and no second colon between them. -/
theorem exists_parse_eq_ok_iff (line : String) :
    (∃ parsed, parse line = .ok parsed) ↔ 2 ≤ line.length ∧ (inside line).count ':' ≤ 1 := by
  rw [parse_eq]
  split
  · next h => exact ⟨fun _ => h, fun _ => ⟨_, rfl⟩⟩
  · next h =>
    refine ⟨?_, fun h' => absurd h' h⟩
    rintro ⟨parsed, hparsed⟩
    cases hparsed

/-- A line that does not parse is reported as it stands. -/
theorem eq_badSyntax_of_parse_eq_error {line : String} {e : LineError}
    (h : parse line = .error e) : e = .badSyntax line := by
  rw [parse_eq] at h
  split at h
  · cases h
  · exact (Except.error.inj h).symm

/-- Nothing has been read of a line that has just been parsed. -/
theorem position_of_parse {line : String} {parsed : ActionLine} (h : parse line = .ok parsed) :
    parsed.position = 0 := by
  rw [parse_eq] at h
  split at h
  · obtain rfl := Except.ok.inj h
    rfl
  · cases h

/-! ### The grammar -/

/-- The action and the parameters that stand, separators between them, for the inside of a line. -/
structure Decomposes (inside : List Char) (action : String) (parameters : List String) : Prop where
  parameters_ne_nil : parameters ≠ []
  colon_not_mem_action : ':' ∉ action.toList
  separator_not_mem : ∀ parameter ∈ parameters, ':' ∉ parameter.toList ∧ ',' ∉ parameter.toList
  /-- An inside without a colon is an action with one empty parameter. -/
  of_not_mem : ':' ∉ inside → inside = action.toList ∧ parameters = [""]
  /-- Otherwise a colon follows the action, and commas stand between the parameters. -/
  of_mem : ':' ∈ inside →
    inside = action.toList ++ ':' :: [','].intercalate (parameters.map String.toList)

theorem map_toList_map_ofList (pieces : List (List Char)) :
    (pieces.map String.ofList).map String.toList = pieces := by
  simp [Function.comp_def]

/-- The parts of an inside decompose it. -/
theorem decomposes_parts {inside : List Char} (h : inside.count ':' ≤ 1) :
    Decomposes inside (String.ofList (actionText inside))
      (((parameterText inside).splitOn ',').map String.ofList) where
  parameters_ne_nil := by simp
  colon_not_mem_action := by
    rw [String.toList_ofList]
    exact not_mem_actionText inside
  separator_not_mem := by
    intro parameter hparameter
    obtain ⟨piece, hpiece, rfl⟩ := List.mem_map.mp hparameter
    rw [String.toList_ofList]
    refine ⟨fun hcolon => ?_, not_mem_of_mem_splitOn hpiece⟩
    -- a colon in a piece is a colon in the parameter text, so a second one in the inside
    have hmem : ':' ∈ parameterText inside := (isInfix_of_mem_splitOn hpiece).subset hcolon
    have hpos := List.count_pos_iff.mpr hmem
    have hcount := count_parameterText inside
    omega
  of_not_mem := by
    intro hcolon
    rw [actionText_of_not_mem hcolon, parameterText_of_not_mem hcolon, String.toList_ofList]
    exact ⟨rfl, rfl⟩
  of_mem := by
    intro hcolon
    rw [map_toList_map_ofList, List.intercalate_splitOn, String.toList_ofList]
    exact (eq_append_of_mem hcolon).1

/-- Cutting the parameters where they are joined gives them back. -/
theorem Decomposes.splitOn_joined {inside : List Char} {action : String} {parameters : List String}
    (h : Decomposes inside action parameters) :
    ([','].intercalate (parameters.map String.toList)).splitOn ','
      = parameters.map String.toList := by
  refine List.splitOn_intercalate ',' ?_ ?_
  · simpa using fun parameter hparameter => (h.separator_not_mem parameter hparameter).2
  · simpa using h.parameters_ne_nil

/-- **An inside decomposes in one way only.** -/
theorem Decomposes.unique {inside : List Char} {action action' : String}
    {parameters parameters' : List String} (h : Decomposes inside action parameters)
    (h' : Decomposes inside action' parameters') :
    action = action' ∧ parameters = parameters' := by
  by_cases hcolon : ':' ∈ inside
  · have heq := (h.of_mem hcolon).symm.trans (h'.of_mem hcolon)
    -- the first colon ends both actions
    have haction : action.toList = action'.toList := by
      rw [← actionText_append h.colon_not_mem_action, heq,
        actionText_append h'.colon_not_mem_action]
    rw [haction] at heq
    have hjoined : [','].intercalate (parameters.map String.toList)
        = [','].intercalate (parameters'.map String.toList) :=
      List.tail_eq_of_cons_eq (List.append_cancel_left heq)
    have hpieces : parameters.map String.toList = parameters'.map String.toList := by
      rw [← h.splitOn_joined, hjoined, h'.splitOn_joined]
    exact ⟨String.toList_inj.mp haction,
      (List.map_inj_right fun _ _ => String.toList_inj.mp).mp hpieces⟩
  · obtain ⟨haction, rfl⟩ := h.of_not_mem hcolon
    obtain ⟨haction', rfl⟩ := h'.of_not_mem hcolon
    exact ⟨String.toList_inj.mp (haction.symm.trans haction'), rfl⟩

/-- **Parsing is the grammar.**  A line parses exactly if it has at least two characters and at most
one colon inside.  What it is parsed into has not been read yet, decomposes the inside, and is the
only action and parameters that do.  A line that does not parse is reported as it stands, and
reading a line from a text is parsing it. -/
theorem parse_grammar (line : String) :
    ((∃ parsed, parse line = .ok parsed) ↔
      2 ≤ line.length ∧ (inside line).count ':' ≤ 1) ∧
    (∀ parsed, parse line = .ok parsed →
      parsed.position = 0 ∧ Decomposes (inside line) parsed.action parsed.parameters ∧
        ∀ action parameters, Decomposes (inside line) action parameters →
          action = parsed.action ∧ parameters = parsed.parameters) ∧
    (∀ e, parse line = .error e → e = .badSyntax line) ∧
    ofText line = parse line := by
  refine ⟨exists_parse_eq_ok_iff line, ?_, fun e => eq_badSyntax_of_parse_eq_error, rfl⟩
  intro parsed hparsed
  obtain ⟨-, hcount⟩ := (exists_parse_eq_ok_iff line).mp ⟨parsed, hparsed⟩
  have hposition := position_of_parse hparsed
  rw [parse_eq] at hparsed
  split at hparsed
  · obtain rfl := Except.ok.inj hparsed
    have hparts := decomposes_parts hcount
    exact ⟨hposition, hparts, fun action parameters h => h.unique hparts⟩
  · cases hparsed

end ActionLine

end DialogueScript
