/-
# The canonical form of a line

A line is rendered in one way, but many texts are parsed into it: any two characters may delimit it,
and where the action has one empty parameter, a colon may stand behind it or not.  Nothing else is
lost in parsing, so a rendered line is the text that was parsed with `<` and `>` for its delimiters
and without a colon at its end (`toList_render_of_parse`).

So the rendering of a line says which line it is (`render_eq_iff`): two texts are parsed into the
same line exactly if they have the same inside up to a final colon (`render_canonical`).
-/
import Mathlib.Data.List.Basic
import DialogueScript.Proofs.ActionLine.Rendering

namespace DialogueScript

namespace ActionLine

/-! ### A colon at the end -/

/-- The inside of a line without a colon at its end. -/
def withoutFinalColon (inside : List Char) : List Char :=
  if inside.getLast? = some ':' then inside.dropLast else inside

/-- Insides that are the same, up to one colon at the end. -/
inductive SameButFinalColon : List Char → List Char → Prop
  | same (inside) : SameButFinalColon inside inside
  | dropped (inside) : SameButFinalColon (inside ++ [':']) inside
  | added (inside) : SameButFinalColon inside (inside ++ [':'])

theorem withoutFinalColon_append (inside : List Char) :
    withoutFinalColon (inside ++ [':']) = inside := by
  rw [withoutFinalColon, if_pos List.getLast?_concat, List.dropLast_concat]

theorem withoutFinalColon_of_not_mem {inside : List Char} (h : ':' ∉ inside) :
    withoutFinalColon inside = inside :=
  if_neg fun hlast => h (List.mem_of_getLast? hlast)

/-- Either there is a colon at the end, or nothing is left out. -/
theorem withoutFinalColon_cases (inside : List Char) :
    inside = withoutFinalColon inside ++ [':'] ∨
      inside.getLast? ≠ some ':' ∧ withoutFinalColon inside = inside := by
  by_cases hlast : inside.getLast? = some ':'
  · obtain ⟨front, rfl⟩ := List.getLast?_eq_some_iff.mp hlast
    exact .inl (by rw [withoutFinalColon_append])
  · exact .inr ⟨hlast, if_neg hlast⟩

theorem withoutFinalColon_eq_self_iff (inside : List Char) :
    withoutFinalColon inside = inside ↔ inside.getLast? ≠ some ':' := by
  rcases withoutFinalColon_cases inside with hcolon | ⟨hlast, hself⟩
  · refine iff_of_false (fun hself => ?_) fun hlast => hlast ?_
    · rw [hself] at hcolon
      cases List.self_eq_append_right.mp hcolon
    · rw [hcolon, List.getLast?_concat]
  · exact iff_of_true hself hlast

/-- With at most one colon, an inside without its final colon has no other at its end. -/
theorem SameButFinalColon.withoutFinalColon_eq {inside inside' : List Char}
    (h : SameButFinalColon inside inside') (hcount : inside.count ':' ≤ 1)
    (hcount' : inside'.count ':' ≤ 1) : withoutFinalColon inside = withoutFinalColon inside' := by
  have hsingle : ∀ front : List Char, (front ++ [':']).count ':' ≤ 1 → ':' ∉ front := by
    intro front hfront
    rw [List.count_append, List.count_singleton_self] at hfront
    exact List.count_eq_zero.mp (by omega)
  cases h with
  | same => rfl
  | dropped =>
    rw [withoutFinalColon_append, withoutFinalColon_of_not_mem (hsingle _ hcount)]
  | added =>
    rw [withoutFinalColon_append, withoutFinalColon_of_not_mem (hsingle _ hcount')]

theorem sameButFinalColon_of_eq {inside inside' : List Char}
    (h : withoutFinalColon inside = withoutFinalColon inside') :
    SameButFinalColon inside inside' := by
  rcases withoutFinalColon_cases inside with hcolon | ⟨-, hself⟩
  · rcases withoutFinalColon_cases inside' with hcolon' | ⟨-, hself'⟩
    · rw [hcolon, h, ← hcolon']
      exact .same inside'
    · rw [hcolon, h, hself']
      exact .dropped inside'
  · rcases withoutFinalColon_cases inside' with hcolon' | ⟨-, hself'⟩
    · rw [hcolon', ← h, hself]
      exact .added inside
    · rw [← hself, h, hself']
      exact .same inside'

/-! ### What a rendered line keeps of its text -/

/-- A parameter section that is joined to nothing is one empty parameter. -/
theorem Decomposes.parameters_eq_of_joined_eq_nil {inside : List Char} {action : String}
    {parameters : List String} (h : Decomposes inside action parameters)
    (hnil : [','].intercalate (parameters.map String.toList) = []) : parameters = [""] := by
  have hpieces := h.splitOn_joined
  rw [hnil, List.splitOn_nil] at hpieces
  obtain ⟨parameter, rfl, hparameter⟩ := List.map_eq_singleton_iff.mp hpieces.symm
  rw [String.toList_eq_nil_iff.mp hparameter]

/-- **Rendering gives the inside back**, without a colon at its end. -/
theorem Decomposes.rendered_eq {inside : List Char} {action : String} {parameters : List String}
    (h : Decomposes inside action parameters) :
    rendered action parameters = withoutFinalColon inside := by
  by_cases hcolon : ':' ∈ inside
  · by_cases hempty : parameters = [""]
    · -- the colon is the last character
      have hinside : inside = action.toList ++ [':'] := by
        rw [h.of_mem hcolon, hempty]
        rfl
      rw [rendered, renderParameters, if_pos hempty, List.append_nil, hinside,
        withoutFinalColon_append]
    · -- behind the colon there is something, and no other colon
      have hjoined := mt h.parameters_eq_of_joined_eq_nil hempty
      have hlast : inside.getLast? ≠ some ':' := by
        rw [h.of_mem hcolon, List.getLast?_append_of_ne_nil _ (List.cons_ne_nil _ _),
          List.getLast?_cons_of_ne_nil hjoined]
        exact fun hlast => h.separable.colon_not_mem_joined (List.mem_of_getLast? hlast)
      rw [rendered, renderParameters, if_neg hempty, (withoutFinalColon_eq_self_iff _).mpr hlast]
      exact (h.of_mem hcolon).symm
  · obtain ⟨haction, hparameters⟩ := h.of_not_mem hcolon
    rw [rendered, renderParameters, if_pos hparameters, List.append_nil, ← haction,
      withoutFinalColon_of_not_mem hcolon]

theorem toList_render_of_parse {text : String} {line : ActionLine} (h : parse text = .ok line) :
    line.render.toList = '<' :: (withoutFinalColon (inside text) ++ ['>']) := by
  rw [toList_render, (decomposes_of_parse h).rendered_eq]

/-- The rendering of a parsed line says which line it is. -/
theorem render_eq_iff {text text' : String} {line line' : ActionLine} (h : parse text = .ok line)
    (h' : parse text' = .ok line') : line.render = line'.render ↔ line = line' := by
  refine ⟨fun heq => ?_, congrArg render⟩
  have hline := parse_render_of_parse h
  rw [heq, parse_render_of_parse h'] at hline
  exact (Except.ok.inj hline).symm

/-- A text of at least two characters is its inside between two characters. -/
theorem exists_toList_eq {text : String} (h : 2 ≤ text.length) :
    ∃ first last, text.toList = first :: (inside text ++ [last]) := by
  rw [inside]
  rw [← String.length_toList] at h
  obtain ⟨first, rest, hrest⟩ := List.exists_cons_of_length_pos (by omega : 0 < text.toList.length)
  rw [hrest, List.length_cons] at h
  have hne : rest ≠ [] := List.ne_nil_of_length_pos (by omega)
  exact ⟨first, rest.getLast hne, by rw [hrest, List.tail_cons, List.dropLast_concat_getLast]⟩

/-- A parsed text is the rendering of its line if it is written the way lines are rendered. -/
theorem render_eq_text_iff {text : String} {line : ActionLine} (h : parse text = .ok line) :
    line.render = text ↔
      text.toList.head? = some '<' ∧ text.toList.getLast? = some '>' ∧
        (inside text).getLast? ≠ some ':' := by
  obtain ⟨hlength, -⟩ := (exists_parse_eq_ok_iff text).mp ⟨line, h⟩
  obtain ⟨first, last, htext⟩ := exists_toList_eq hlength
  rw [← withoutFinalColon_eq_self_iff, ← String.toList_inj, toList_render_of_parse h, htext]
  constructor
  · intro heq
    obtain ⟨rfl, hrest⟩ := List.cons.inj heq
    obtain ⟨hinside, hlast⟩ := List.append_inj' hrest rfl
    obtain rfl := List.singleton_inj.mp hlast
    exact ⟨rfl, by rw [List.getLast?_cons, List.getLast?_concat, Option.getD_some], hinside⟩
  · rintro ⟨hhead, hlast, hinside⟩
    obtain rfl := Option.some.inj hhead
    rw [List.getLast?_cons, List.getLast?_concat, Option.getD_some] at hlast
    obtain rfl := Option.some.inj hlast
    rw [hinside]

/-- **A rendered line is the canonical form of its text.**  It is the text between `<` and `>`
instead of its own delimiters, without a colon at the end.  So two texts are parsed into the same
line exactly if they are rendered alike, and that is so exactly if they have the same inside up to a
final colon; a text is rendered as it stands if it is in this form; and rendering what is parsed
from a rendered line changes nothing more. -/
theorem render_canonical {text text' : String} {line line' : ActionLine}
    (h : parse text = .ok line) (h' : parse text' = .ok line') :
    line.render.toList = '<' :: (withoutFinalColon (inside text) ++ ['>']) ∧
      (line = line' ↔ line.render = line'.render) ∧
      (line.render = line'.render ↔ SameButFinalColon (inside text) (inside text')) ∧
      (line.render = text ↔
        text.toList.head? = some '<' ∧ text.toList.getLast? = some '>' ∧
          (inside text).getLast? ≠ some ':') ∧
      ∃ again, parse line.render = .ok again ∧ again.render = line.render := by
  obtain ⟨-, hcount⟩ := (exists_parse_eq_ok_iff text).mp ⟨line, h⟩
  obtain ⟨-, hcount'⟩ := (exists_parse_eq_ok_iff text').mp ⟨line', h'⟩
  refine ⟨toList_render_of_parse h, (render_eq_iff h h').symm, ?_, render_eq_text_iff h, line,
    parse_render_of_parse h, rfl⟩
  rw [← String.toList_inj, toList_render_of_parse h, toList_render_of_parse h']
  constructor
  · intro heq
    have hinside := List.append_cancel_right (List.cons.inj heq).2
    exact sameButFinalColon_of_eq hinside
  · intro hsame
    rw [hsame.withoutFinalColon_eq hcount hcount']

/-- The form at a text with other delimiters and a colon at the end, and at one in that form. -/
theorem render_canonical_of_final_colon :
    let line : ActionLine := ⟨"a,<", [""], 0⟩
    parse "「a,<:」" = .ok line ∧ parse "<a,<>" = .ok line ∧
      line.render.toList = '<' :: (withoutFinalColon (inside "「a,<:」") ++ ['>']) ∧
      (line = line ↔ line.render = line.render) ∧
      (line.render = line.render ↔ SameButFinalColon (inside "「a,<:」") (inside "<a,<>")) ∧
      (line.render = "「a,<:」" ↔
        "「a,<:」".toList.head? = some '<' ∧ "「a,<:」".toList.getLast? = some '>' ∧
          (inside "「a,<:」").getLast? ≠ some ':') ∧
      ∃ again, parse line.render = .ok again ∧ again.render = line.render :=
  have h : parse "「a,<:」" = .ok ⟨"a,<", [""], 0⟩ := by decide +kernel
  have h' : parse "<a,<>" = .ok ⟨"a,<", [""], 0⟩ := by decide +kernel
  ⟨h, h', render_canonical h h'⟩

end ActionLine

end DialogueScript
