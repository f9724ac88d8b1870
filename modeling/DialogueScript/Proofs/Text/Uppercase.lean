/-
# Capitals stay as they are

The upper case of a character may have several characters.  The first of them is its own upper
case (`uppercase_head`), so capitalising a word twice changes nothing the second time.  And no
character that cuts names or lines comes from another (`eq_of_mem_uppercase`).

Both are facts about the tables of letters and their capitals.  They are decided at once for all
letters, by sets of code points that are kept as numbers, one bit for each point (`pointSet`): two
sets have nothing in common if their numbers have no common bit.
-/
import DialogueScript.Text.Uppercase

namespace DialogueScript

/-! ### Sets of code points -/

/-- The number whose bits are the points of a list. -/
def pointSet (points : List Nat) : Nat :=
  points.foldr (fun point set => set ||| 1 <<< point) 0

theorem testBit_pointSet (points : List Nat) (point : Nat) :
    (pointSet points).testBit point = true ↔ point ∈ points := by
  induction points with
  | nil => simp [pointSet]
  | cons head points ih =>
    have hset : pointSet (head :: points) = pointSet points ||| 1 <<< head := rfl
    rw [hset, Nat.testBit_or, Bool.or_eq_true, ih, Nat.one_shiftLeft, Nat.testBit_two_pow,
      decide_eq_true_eq, List.mem_cons, or_comm, eq_comm]

theorem not_mem_of_land_eq_zero {points points' : List Nat}
    (h : pointSet points &&& pointSet points' = 0) {point : Nat} (hmem : point ∈ points) :
    point ∉ points' := by
  intro hmem'
  have hbit : (pointSet points &&& pointSet points').testBit point = true := by
    rw [Nat.testBit_and, (testBit_pointSet _ _).mpr hmem, (testBit_pointSet _ _).mpr hmem']
    rfl
  rw [h, Nat.zero_testBit] at hbit
  cases hbit

/-! ### The letters and their capitals -/

/-- The code points of a run. -/
def CaseRun.points (run : CaseRun) : List Nat :=
  (List.range ((run.last - run.first) / run.stride + 1)).map fun k => run.first + run.stride * k

theorem CaseRun.mem_points {run : CaseRun} {point : Nat} (h : run.covers point = true) :
    point ∈ run.points := by
  simp only [covers, Bool.and_eq_true, decide_eq_true_eq, beq_iff_eq] at h
  obtain ⟨⟨hfirst, hlast⟩, hstride⟩ := h
  refine List.mem_map.mpr ⟨(point - run.first) / run.stride, List.mem_range.mpr ?_, ?_⟩
  · have hle := Nat.div_le_div_right (c := run.stride) (Nat.sub_le_sub_right hlast run.first)
    omega
  · rw [Nat.mul_div_cancel' (Nat.dvd_of_mod_eq_zero hstride)]
    omega

/-- The code points of the letters whose upper case is not the letter itself. -/
def letterPoints : List Nat :=
  capitalExpansions.map Prod.fst ++ capitalRuns.flatMap CaseRun.points

/-- The first code points of their upper cases. -/
def capitalPoints : List Nat :=
  capitalExpansions.flatMap (fun entry => entry.2.take 1) ++
    capitalRuns.flatMap fun run => run.points.map run.capital

/-- The code points behind the first. -/
def laterPoints : List Nat :=
  capitalExpansions.flatMap fun entry => entry.2.drop 1

/-- The characters that cut names into words and lines into parameters. -/
def cuttingChars : List Char :=
  ['_', ' ', ':', ',']

/-- No letter has a capital that is such a letter.  The point 0 stands for what is no character. -/
theorem capitalPoints_land_letterPoints :
    pointSet (0 :: capitalPoints) &&& pointSet letterPoints = 0 := by
  decide +kernel

theorem upperPoints_land_cuttingChars :
    pointSet (0 :: (capitalPoints ++ laterPoints)) &&& pointSet (cuttingChars.map Char.toNat)
      = 0 := by
  decide +kernel

theorem expansion_ne_nil : ∀ entry ∈ capitalExpansions, entry.2 ≠ [] := by
  decide +kernel

/-- A character is at its code point, or at 0 if there is no character with that code point. -/
theorem toNat_ofNat_mem {points : List Nat} {point : Nat} (h : point ∈ points) :
    (Char.ofNat point).toNat ∈ 0 :: points := by
  rw [Char.ofNat]
  by_cases hvalid : point.isValidChar
  · rw [dif_pos hvalid]
    exact List.mem_cons_of_mem 0 h
  · rw [dif_neg hvalid]
    exact List.mem_cons_self

/-! ### The upper case of a character -/

theorem mem_of_lookup_eq_some {points : List Nat} {point : Nat}
    (h : capitalExpansions.lookup point = some points) : (point, points) ∈ capitalExpansions := by
  obtain ⟨before, after, hentries, -⟩ := List.lookup_eq_some_iff.mp h
  rw [hentries]
  exact List.mem_append_right _ List.mem_cons_self

/-- What is none of the letters is its own upper case. -/
theorem uppercase_of_not_mem {c : Char} (h : c.toNat ∉ letterPoints) : uppercase c = [c] := by
  rw [letterPoints, List.mem_append, not_or] at h
  obtain ⟨hexpansion, hrun⟩ := h
  have hlookup : capitalExpansions.lookup c.toNat = none := by
    rw [Option.eq_none_iff_forall_ne_some]
    exact fun points hpoints =>
      hexpansion (List.mem_map.mpr ⟨_, mem_of_lookup_eq_some hpoints, rfl⟩)
  have hfind : capitalRuns.find? (·.covers c.toNat) = none := by
    rw [List.find?_eq_none]
    exact fun run hmem hcovers =>
      hrun (List.mem_flatMap.mpr ⟨run, hmem, CaseRun.mem_points hcovers⟩)
  rw [uppercase]
  simp only [hlookup, hfind]

/-- The upper case of a character is the character itself, or is listed in the tables. -/
theorem uppercase_cases (c : Char) :
    uppercase c = [c] ∨ ∃ first ∈ capitalPoints, ∃ later ⊆ laterPoints,
      uppercase c = Char.ofNat first :: later.map Char.ofNat := by
  rw [uppercase]
  split
  · next points hlookup =>
    have hmem := mem_of_lookup_eq_some hlookup
    obtain ⟨first, later, rfl⟩ := List.exists_cons_of_ne_nil (expansion_ne_nil _ hmem)
    refine .inr ⟨first, ?_, later, fun point hpoint => ?_, rfl⟩
    · exact List.mem_append_left _ (List.mem_flatMap.mpr ⟨_, hmem, List.mem_cons_self⟩)
    · exact List.mem_flatMap.mpr ⟨_, hmem, hpoint⟩
  · split
    · next run hfind =>
      have hcovers := List.find?_some (p := fun run : CaseRun => run.covers c.toNat) hfind
      have hpoint : run.capital c.toNat ∈ run.points.map run.capital :=
        List.mem_map.mpr ⟨_, CaseRun.mem_points hcovers, rfl⟩
      have hcapital : run.capital c.toNat ∈ capitalPoints := List.mem_append_right _
        (List.mem_flatMap.mpr ⟨run, List.mem_of_find?_eq_some hfind, hpoint⟩)
      exact .inr ⟨_, hcapital, [], List.nil_subset _, rfl⟩
    · exact .inl rfl

/-- **A capital is its own upper case**: the upper case of a character begins with a character that
upper-casing leaves alone. -/
theorem uppercase_head (c : Char) : ∃ first later, uppercase c = first :: later ∧
    uppercase first = [first] := by
  rcases uppercase_cases c with hself | ⟨first, hfirst, later, -, heq⟩
  · exact ⟨c, [], hself, hself⟩
  · have hpoint := toNat_ofNat_mem hfirst
    exact ⟨_, _, heq,
      uppercase_of_not_mem (not_mem_of_land_eq_zero capitalPoints_land_letterPoints hpoint)⟩

/-- The upper case of one letter may be two, or one that is no title case. -/
example : uppercase 'ß' = ['S', 'S'] ∧ uppercase 'ǆ' = ['Ǆ'] := by decide +kernel

/-- **What cuts names and lines is in the upper case of itself only.** -/
theorem eq_of_mem_uppercase {c d : Char} (hd : d ∈ cuttingChars) (h : d ∈ uppercase c) : d = c := by
  rcases uppercase_cases c with hself | ⟨first, hfirst, later, hlater, heq⟩
  · rw [hself] at h
    exact List.mem_singleton.mp h
  · have hpoint : d.toNat ∈ 0 :: (capitalPoints ++ laterPoints) := by
      rw [heq, List.mem_cons] at h
      rcases h with rfl | h
      · exact toNat_ofNat_mem (List.mem_append_left _ hfirst)
      · obtain ⟨point, hpoint, rfl⟩ := List.mem_map.mp h
        exact toNat_ofNat_mem (List.mem_append_right _ (hlater hpoint))
    have hnone := not_mem_of_land_eq_zero upperPoints_land_cuttingChars hpoint
    exact absurd (List.mem_map.mpr ⟨d, hd, rfl⟩) hnone

end DialogueScript
