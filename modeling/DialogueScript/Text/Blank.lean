/-
# White space

A script is laid out freely: a line may be indented, and may end in spaces, tabs or a carriage
return.  This file says which characters count as white space, the 25 code points with the Unicode
property `White_Space`, and removes them from both ends of a line (`trim`).

Main statements: trimming removes white space only (`exists_blank_append_trim`), and what is left
neither begins nor ends with any (`head?_trim`, `getLast?_trim`).
-/

namespace DialogueScript

/-- The code points with the property `White_Space`, as closed ranges in increasing order. -/
def blankRanges : List (Nat × Nat) :=
  [(0x9, 0xD), (0x20, 0x20), (0x85, 0x85), (0xA0, 0xA0), (0x1680, 0x1680), (0x2000, 0x200A),
    (0x2028, 0x2029), (0x202F, 0x202F), (0x205F, 0x205F), (0x3000, 0x3000)]

/-- A blank character lies in one of the `blankRanges`. -/
def isBlank (c : Char) : Bool :=
  blankRanges.any fun (first, last) => first ≤ c.toNat && c.toNat ≤ last

/-- The line without the blank characters at its end. -/
def trimEnd (line : List Char) : List Char :=
  (line.reverse.dropWhile isBlank).reverse

/-- The line without the blank characters at either end. -/
def trim (line : List Char) : List Char :=
  trimEnd (line.dropWhile isBlank)

/-! ### What trimming removes and keeps -/

theorem exists_blank_append_trimEnd (line : List Char) :
    ∃ blanks, line = trimEnd line ++ blanks ∧ ∀ c ∈ blanks, isBlank c = true := by
  refine ⟨(line.reverse.takeWhile isBlank).reverse, ?_, fun c hc => ?_⟩
  · rw [trimEnd, ← List.reverse_append, List.takeWhile_append_dropWhile, List.reverse_reverse]
  · have hall := List.all_takeWhile (p := isBlank) (l := line.reverse)
    exact List.all_eq_true.mp hall c (List.mem_reverse.mp hc)

/-- **Only white space is lost**: a line is its trimmed text between two runs of blanks. -/
theorem exists_blank_append_trim (line : List Char) :
    ∃ before after, line = before ++ trim line ++ after ∧
      (∀ c ∈ before, isBlank c = true) ∧ (∀ c ∈ after, isBlank c = true) := by
  obtain ⟨after, hafter, hblank⟩ := exists_blank_append_trimEnd (line.dropWhile isBlank)
  refine ⟨line.takeWhile isBlank, after, ?_, fun c hc => ?_, hblank⟩
  · rw [trim, List.append_assoc, ← hafter, List.takeWhile_append_dropWhile]
  · exact List.all_eq_true.mp (List.all_takeWhile (p := isBlank) (l := line)) c hc

theorem getLast?_trimEnd (line : List Char) :
    ∀ c ∈ (trimEnd line).getLast?, isBlank c = false := by
  intro c hc
  rw [trimEnd, List.getLast?_reverse] at hc
  have h := List.head?_dropWhile_not isBlank line.reverse
  rw [Option.mem_def.mp hc] at h
  simpa using h

/-- A trimmed line does not begin with white space. -/
theorem head?_trim (line : List Char) : ∀ c ∈ (trim line).head?, isBlank c = false := by
  intro c hc
  obtain ⟨blanks, hline, -⟩ := exists_blank_append_trimEnd (line.dropWhile isBlank)
  have hhead : (line.dropWhile isBlank).head? = some c := by
    rw [hline, List.head?_append, ← trim, Option.mem_def.mp hc, Option.some_or]
  have h := List.head?_dropWhile_not isBlank line
  rw [hhead] at h
  simpa using h

/-- A trimmed line does not end in white space. -/
theorem getLast?_trim (line : List Char) :
    ∀ c ∈ (trim line).getLast?, isBlank c = false :=
  getLast?_trimEnd _

end DialogueScript
