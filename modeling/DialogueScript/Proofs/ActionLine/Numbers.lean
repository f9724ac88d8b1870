/-
# Numbers as parameters

A parameter that is read as a number is read as the single nearest to what it says.  What it says is
given by the grammar of decimal texts, exactly and at any length, and what is nearest by the
magnitudes of all singles; so there is one rounding, from the text to the single.
-/
import DialogueScript.Proofs.ActionLine.TypedValues
import DialogueScript.Proofs.Number.Rounding

namespace DialogueScript

namespace ActionLine

variable {line : ActionLine} {token : String}

/-- A parameter that is no number, or too large a one, is refused as it stands. -/
theorem answer_number_of_none (hnext : line.next? = some token)
    (hnone : Single.ofText? token.toList = none) (name : String) :
    line.answer ⟨.number, name⟩ = (.error (.wrongType "decimal value" name token), line) := by
  rw [answer_of_take (convertNumber name) .number rfl hnext, convertNumber, hnone]
  rfl

/-- A parameter that is a number is handed out as its single. -/
theorem answer_number_of_some (hnext : line.next? = some token) {s : Single}
    (hsome : Single.ofText? token.toList = some s) (name : String) :
    line.answer ⟨.number, name⟩ = (.ok (.number s), line.advance) := by
  apply answer_of_value? hnext
  rw [ReadKind.value?, hsome]
  rfl

/-- **A number is rounded once, to the nearest single.**  A read of a number succeeds exactly if the
parameter is a decimal text below the limit behind the largest single.  It hands out the single with
the sign that is written and the magnitude nearest to the one written, or of two the even one; and
otherwise it fails, naming the parameter, and leaves the line as it was. -/
theorem answer_number_rounds (hnext : line.next? = some token) (name : String) :
    ((∃ s, line.answer ⟨.number, name⟩ = (.ok (.number s), line.advance)) ↔
      ∃ negative q, DecimalText negative q token.toList ∧ q < 2 ^ 128 - 2 ^ 103) ∧
    (∀ s, line.answer ⟨.number, name⟩ = (.ok (.number s), line.advance) ↔
      ∃ q, DecimalText s.isNegative q token.toList ∧ q < 2 ^ 128 - 2 ^ 103 ∧ s.RoundsTo q) ∧
    ((¬ ∃ negative q, DecimalText negative q token.toList ∧ q < 2 ^ 128 - 2 ^ 103) →
      line.answer ⟨.number, name⟩ = (.error (.wrongType "decimal value" name token), line)) := by
  simp only [← Single.exists_ofText?_eq_some_iff, ← Single.ofText?_eq_some_iff]
  rcases htext : Single.ofText? token.toList with - | s
  · rw [answer_number_of_none hnext htext]
    refine ⟨?_, fun s => ?_, fun _ => rfl⟩
    · exact iff_of_false (fun ⟨_, h⟩ => by cases h) fun ⟨_, h⟩ => by cases h
    · exact iff_of_false (fun h => by cases h) fun h => by cases h
  · rw [answer_number_of_some hnext htext]
    refine ⟨iff_of_true ⟨s, rfl⟩ ⟨s, rfl⟩, fun s' => ?_, fun hnone => absurd ⟨s, rfl⟩ hnone⟩
    constructor
    · intro h
      obtain rfl : s = s' := ReadValue.number.inj (Except.ok.inj (congrArg Prod.fst h))
      rfl
    · intro h
      rw [Option.some.inj h]

/-- The law at a negative number half way between two singles: the even one is handed out. -/
theorem answer_number_rounds_of_tie :
    let line : ActionLine := ⟨"tone", ["x", "-16777217.00e0", "y"], 1⟩
    line.next? = some "-16777217.00e0" ∧
      line.answer ⟨.number, "pitch"⟩
        = (.ok (.number ⟨0xcb800000⟩), ⟨"tone", ["x", "-16777217.00e0", "y"], 2⟩) ∧
      ∃ q, DecimalText true q "-16777217.00e0".toList ∧ q < 2 ^ 128 - 2 ^ 103 ∧
        (⟨0xcb800000⟩ : Single).RoundsTo q := by
  intro line
  have hnext : line.next? = some "-16777217.00e0" := rfl
  have hanswer : line.answer ⟨.number, "pitch"⟩
      = (.ok (.number ⟨0xcb800000⟩), ⟨"tone", ["x", "-16777217.00e0", "y"], 2⟩) := by
    decide +kernel
  exact ⟨hnext, hanswer, ((answer_number_rounds hnext "pitch").2.1 _).mp hanswer⟩

end ActionLine

end DialogueScript
