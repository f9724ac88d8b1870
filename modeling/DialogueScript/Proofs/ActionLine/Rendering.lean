/-
# Parsing a rendered line

A rendered line shows the action and the parameters between separators, and nothing else.  They can
be told apart again if no separator stands inside them, and of a parsed line that is so, whatever
its delimiters were (`separable_of_parse`).

`Decomposes.parse_eq_ok` is the converse of the grammar: a line whose inside decomposes parses into
that decomposition.  Rendering writes an inside that decomposes (`Separable.decomposes_rendered`),
also where it leaves out the parameter section, for an action alone decomposes into itself and one
empty parameter.  So parsing undoes rendering (`parse_render`), except that the new line has not
been read yet (`parse_render_after`).
-/
import DialogueScript.Proofs.ActionLine.Reads

namespace DialogueScript

namespace ActionLine

variable {action : String} {parameters : List String}

/-! ### Parts without separators -/

/-- An action and parameters in which no separator stands that would cut them elsewhere.  A comma in
the action does not. -/
structure Separable (action : String) (parameters : List String) : Prop where
  parameters_ne_nil : parameters ≠ []
  colon_not_mem_action : ':' ∉ action.toList
  separator_not_mem : ∀ parameter ∈ parameters, ':' ∉ parameter.toList ∧ ',' ∉ parameter.toList

theorem Decomposes.separable {inside : List Char} (h : Decomposes inside action parameters) :
    Separable action parameters :=
  ⟨h.parameters_ne_nil, h.colon_not_mem_action, h.separator_not_mem⟩

/-- The parts of a parsed line decompose its inside. -/
theorem decomposes_of_parse {text : String} {line : ActionLine} (h : parse text = .ok line) :
    Decomposes (inside text) line.action line.parameters := by
  obtain ⟨-, hcount⟩ := (exists_parse_eq_ok_iff text).mp ⟨line, h⟩
  rw [parse_eq] at h
  split at h
  · obtain rfl := Except.ok.inj h
    exact decomposes_parts hcount
  · cases h

theorem separable_of_parse {text : String} {line : ActionLine} (h : parse text = .ok line) :
    Separable line.action line.parameters :=
  (decomposes_of_parse h).separable

/-! ### A decomposition is parsed -/

/-- No colon stands among the joined parameters. -/
theorem Separable.colon_not_mem_joined (h : Separable action parameters) :
    ':' ∉ [','].intercalate (parameters.map String.toList) := by
  intro hcolon
  rcases mem_intercalate hcolon with hcomma | ⟨piece, hpiece, hmem⟩
  · cases hcomma
  · obtain ⟨parameter, hparameter, rfl⟩ := List.mem_map.mp hpiece
    exact (h.separator_not_mem parameter hparameter).1 hmem

theorem Decomposes.count_le_one {inside : List Char} (h : Decomposes inside action parameters) :
    inside.count ':' ≤ 1 := by
  by_cases hcolon : ':' ∈ inside
  · have haction := List.count_eq_zero.mpr h.colon_not_mem_action
    have hjoined := List.count_eq_zero.mpr h.separable.colon_not_mem_joined
    rw [h.of_mem hcolon, List.count_append, List.count_cons_self, haction, hjoined]
  · rw [List.count_eq_zero.mpr hcolon]
    exact Nat.zero_le 1

/-- **What decomposes is parsed**: a line of at least two characters whose inside decomposes parses
into the decomposition. -/
theorem Decomposes.parse_eq_ok {text : String} (h : Decomposes (inside text) action parameters)
    (hlength : 2 ≤ text.length) : parse text = .ok ⟨action, parameters, 0⟩ := by
  have hcount := h.count_le_one
  obtain ⟨haction, hparameters⟩ := h.unique (decomposes_parts hcount)
  rw [parse_eq, if_pos ⟨hlength, hcount⟩, ← haction, ← hparameters]

/-! ### What is rendered -/

/-- The text that rendering writes between the delimiters. -/
def rendered (action : String) (parameters : List String) : List Char :=
  action.toList ++ renderParameters parameters

theorem toList_render (line : ActionLine) :
    line.render.toList = '<' :: (rendered line.action line.parameters ++ ['>']) := by
  rw [render, String.toList_ofList, rendered]

theorem inside_render (line : ActionLine) :
    inside line.render = rendered line.action line.parameters := by
  rw [inside, toList_render, List.tail_cons, List.dropLast_concat]

theorem two_le_length_render (line : ActionLine) : 2 ≤ line.render.length := by
  rw [← String.length_toList, toList_render, List.length_cons, List.length_append]
  exact Nat.le_add_left 2 _

/-- Rendering leaves out the colon only where the action has one empty parameter. -/
theorem Separable.decomposes_rendered (h : Separable action parameters) :
    Decomposes (rendered action parameters) action parameters := by
  refine ⟨h.parameters_ne_nil, h.colon_not_mem_action, h.separator_not_mem, ?_, ?_⟩
  · intro hcolon
    rw [rendered, renderParameters] at hcolon ⊢
    split at hcolon
    · next hempty => exact ⟨by rw [if_pos hempty, List.append_nil], hempty⟩
    · exact absurd (List.mem_append_right _ List.mem_cons_self) hcolon
  · intro hcolon
    rw [rendered, renderParameters] at hcolon ⊢
    split at hcolon
    · rw [List.append_nil] at hcolon
      exact absurd hcolon h.colon_not_mem_action
    · next hsection => rw [if_neg hsection, actionSeparator, parameterSeparator]

/-- Rendering a line that was parsed writes no character that did not stand in it. -/
theorem Decomposes.rendered_subset {inside : List Char} (h : Decomposes inside action parameters) :
    rendered action parameters ⊆ inside := by
  by_cases hcolon : ':' ∈ inside
  · rw [h.of_mem hcolon, rendered, renderParameters]
    split
    · rw [List.append_nil]
      exact List.subset_append_left _ _
    · exact List.Subset.refl _
  · obtain ⟨haction, hparameters⟩ := h.of_not_mem hcolon
    rw [rendered, renderParameters, if_pos hparameters, List.append_nil, haction]
    exact List.Subset.refl _

theorem inside_subset (text : String) : inside text ⊆ text.toList :=
  fun _ hc => List.mem_of_mem_tail (List.dropLast_subset _ hc)

/-- **Parsing undoes rendering** if no separator stands inside the parts; the line is then as if
nothing had been read of it. -/
theorem parse_render {line : ActionLine} (h : Separable line.action line.parameters) :
    parse line.render = .ok ⟨line.action, line.parameters, 0⟩ := by
  have hinside : Decomposes (inside line.render) line.action line.parameters := by
    rw [inside_render]
    exact h.decomposes_rendered
  exact hinside.parse_eq_ok (two_le_length_render line)

/-- A line that writes out its parameter section, also where there is only an empty parameter, is
parsed into its parts as well. -/
theorem Separable.parse_written (h : Separable action parameters) :
    parse ("<" ++ action ++ ":" ++ ",".intercalate parameters ++ ">")
      = .ok ⟨action, parameters, 0⟩ := by
  have htext : ("<" ++ action ++ ":" ++ ",".intercalate parameters ++ ">").toList
      = '<' :: (action.toList ++ ':' :: [','].intercalate (parameters.map String.toList) ++ ['>']) := by
    simp [String.toList_intercalate]
  have hinside : inside ("<" ++ action ++ ":" ++ ",".intercalate parameters ++ ">")
      = action.toList ++ ':' :: [','].intercalate (parameters.map String.toList) := by
    rw [inside, htext, List.tail_cons, List.dropLast_concat]
  apply Decomposes.parse_eq_ok
  · rw [hinside]
    refine ⟨h.parameters_ne_nil, h.colon_not_mem_action, h.separator_not_mem, ?_, fun _ => rfl⟩
    exact fun hcolon => absurd (List.mem_append_right _ List.mem_cons_self) hcolon
  · rw [← String.length_toList, htext, List.length_cons, List.length_append]
    exact Nat.le_add_left 2 _

/-! ### Lines that have been read -/

/-- A line is equal to its parts at the first place only if it is unread. -/
theorem eq_unread_iff (line : ActionLine) :
    (⟨line.action, line.parameters, 0⟩ : ActionLine) = line ↔ line.position = 0 := by
  constructor
  · intro heq
    exact (congrArg position heq).symm
  · intro hposition
    rw [← hposition]

/-- A line that was parsed and not read yet is what its rendering is parsed into. -/
theorem parse_render_of_parse {text : String} {line : ActionLine} (h : parse text = .ok line) :
    parse line.render = .ok line := by
  rw [parse_render (separable_of_parse h), (eq_unread_iff line).mpr (position_of_parse h)]

/-- **Rendering a line and parsing it again**, after any reads of a parsed line, gives its action
and all of its parameters, unread; so it gives the same line exactly if no parameter had been handed
out. -/
theorem parse_render_after {text : String} {line : ActionLine} (h : parse text = .ok line)
    (requests : List Request) :
    ∃ reparsed, parse (line.after requests).render = .ok reparsed ∧
      reparsed.action = (line.after requests).action ∧
      reparsed.parameters = (line.after requests).parameters ∧
      reparsed.position = 0 ∧
      (reparsed = line.after requests ↔ (line.after requests).position = 0) := by
  have hparts : Separable (line.after requests).action (line.after requests).parameters := by
    rw [action_after, parameters_after]
    exact separable_of_parse h
  exact ⟨_, parse_render hparts, rfl, rfl, rfl, eq_unread_iff _⟩

/-- The law at a line with other delimiters, a comma in the action and an empty parameter, of which
one parameter has been read. -/
theorem parse_render_after_of_one_read :
    let line : ActionLine := ⟨"a,<", ["", "\n>"], 0⟩
    let requests : List Request := [⟨.text, "first"⟩, ⟨.integer, "second"⟩]
    parse "「a,<:,\n>」" = .ok line ∧
      ∃ reparsed, parse (line.after requests).render = .ok reparsed ∧
        reparsed.action = (line.after requests).action ∧
        reparsed.parameters = (line.after requests).parameters ∧
        reparsed.position = 0 ∧
        (reparsed = line.after requests ↔ (line.after requests).position = 0) :=
  have h : parse "「a,<:,\n>」" = .ok ⟨"a,<", ["", "\n>"], 0⟩ := by decide +kernel
  ⟨h, parse_render_after h _⟩

end ActionLine

end DialogueScript
