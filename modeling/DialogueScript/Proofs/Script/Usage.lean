/-
# Counting with a usage

A usage is built by adding one line after the other, so all that it holds follows from what one
addition does: to what it finds (`find?_add`), and to the sum of its counts over the actions with
some property (`total_add`).

Lines may be added in any order (`add_left_comm`), so counting them from the first on or from the
last on gives the same `tally` (`foldl_add_eq_tally`).  For a list of actions the two facts above give
the laws of its tally: an action is found exactly if it is listed, under the number of times that it
is (`find?_tally`), and the counts of the actions with a property sum up to the number of listed ones
that have it (`total_tally`).

Usages are merged action by action (`find?_merge`), so merging is associative and commutative.
-/
import Mathlib.Algebra.Ring.Nat
import Mathlib.Data.List.Fold
import DialogueScript.Script.Usage

namespace DialogueScript

namespace Usage

/-! ### What one addition changes -/

theorem find?_add (action name : String) (n : Nat) (usage : Usage) :
    (add action n usage).find? name
      = if name = action then some (usage.count action + n) else usage.find? name :=
  Catalogue.find?_alter action name _ usage

theorem count_add (action name : String) (n : Nat) (usage : Usage) :
    (add action n usage).count name = usage.count name + if name = action then n else 0 := by
  rw [count, find?_add]
  by_cases hname : name = action
  · rw [if_pos hname, if_pos hname, Option.getD_some, hname]
  · rw [if_neg hname, if_neg hname, count, Nat.add_zero]

/-- Lines may be added in any order. -/
theorem add_left_comm (action action' : String) (n n' : Nat) (usage : Usage) :
    add action n (add action' n' usage) = add action' n' (add action n usage) := by
  apply Catalogue.ext_find?
  intro name
  simp only [find?_add, count_add]
  by_cases h : name = action
  · by_cases h' : name = action'
    · simp [← h, ← h', Nat.add_right_comm]
    · simp [← h, h']
  · by_cases h' : name = action'
    · simp [h, ← h']
    · simp [h, h']

/-- The sum of the counts of the actions with a property. -/
def total (usage : Usage) (p : String → Bool) : Nat :=
  ((usage.entries.filter fun entry => p entry.1).map (·.2)).sum

/-- What is added goes into the sum exactly if its action has the property. -/
theorem total_add (action : String) (n : Nat) (usage : Usage) (p : String → Bool) :
    (add action n usage).total p = usage.total p + if p action then n else 0 := by
  obtain ⟨entries, hinc⟩ := usage
  simp only [add, Catalogue.alter, total]
  clear hinc
  induction entries with
  | nil => cases hp : p action <;> simp [Catalogue.alterEntries, hp]
  | cons head rest ih =>
    obtain ⟨other, old⟩ := head
    rw [Catalogue.alterEntries]
    split
    · cases hp : p action <;> simp [hp, Nat.add_comm]
    · next hnot =>
      split
      · cases hother : p other
        · simpa [hother] using ih
        · simp only [List.filter_cons, hother, if_true, List.map_cons, List.sum_cons, ih]
          omega
      · next hnot' =>
        obtain rfl : action = other := ByteOrder.eq_of_not hnot hnot'
        cases hp : p action
        · simp [hp]
        · simp only [List.filter_cons, hp, if_true, List.map_cons, List.sum_cons, Option.getD_some]
          omega

/-! ### Usages together -/

/-- **What two usages merge into**: an action is listed if one of them lists it, under the sum of its
counts. -/
theorem find?_merge (usage usage' : Usage) (name : String) :
    (usage.merge usage').find? name
      = Option.merge (· + ·) (usage.find? name) (usage'.find? name) := by
  obtain ⟨entries, hinc⟩ := usage'
  show (entries.foldl (fun sum entry => add entry.1 entry.2 sum) usage).find? name
    = Option.merge (· + ·) (usage.find? name) (entries.lookup name)
  induction entries generalizing usage with
  | nil => rw [List.foldl_nil, List.lookup_nil, Option.merge_none_right]
  | cons head rest ih =>
    obtain ⟨hhead, hrest⟩ := List.pairwise_cons.mp hinc
    rw [List.foldl_cons, ih _ hrest, find?_add, Catalogue.lookup_cons_eq_if]
    by_cases hname : name = head.1
    · -- the name of the first entry does not come again, so nothing more is counted for it
      subst hname
      rw [if_pos rfl, if_pos rfl, count, Catalogue.lookup_eq_none_of_before hhead,
        Option.merge_none_right]
      rcases usage.find? head.1 with - | old
      · rw [Option.getD_none, Nat.zero_add, Option.merge_none_left]
      · rfl
    · rw [if_neg hname, if_neg hname]

theorem empty_merge (usage : Usage) : Usage.merge Catalogue.empty usage = usage := by
  apply Catalogue.ext_find?
  intro name
  rw [find?_merge, Catalogue.find?_empty, Option.merge_none_left]

theorem merge_assoc (usage usage' usage'' : Usage) :
    (usage.merge usage').merge usage'' = usage.merge (usage'.merge usage'') := by
  apply Catalogue.ext_find?
  intro name
  simp only [find?_merge]
  exact Std.Associative.assoc _ _ _

theorem merge_comm (usage usage' : Usage) : usage.merge usage' = usage'.merge usage := by
  apply Catalogue.ext_find?
  intro name
  simp only [find?_merge]
  exact Std.Commutative.comm _ _

/-! ### The usage of a list of actions -/

/-- The usage of lines with these actions. -/
def tally (actions : List String) : Usage :=
  actions.foldr (add · 1) Catalogue.empty

/-- Counting from the first line on gives the same: which line is counted first does not matter. -/
theorem foldl_add_eq_tally (actions : List String) :
    actions.foldl (fun usage action => add action 1 usage) Catalogue.empty = tally actions := by
  have : LeftCommutative (add · 1) :=
    ⟨fun action action' usage => add_left_comm action action' 1 1 usage⟩
  exact List.foldl_flip_eq_foldr (f := (add · 1))

theorem count_tally (actions : List String) (name : String) :
    (tally actions).count name = actions.count name := by
  induction actions with
  | nil => rfl
  | cons action actions ih =>
    show (add action 1 (tally actions)).count name = _
    rw [count_add, ih, List.count_cons]
    by_cases hname : name = action
    · rw [if_pos hname, if_pos (beq_iff_eq.mpr hname.symm)]
    · rw [if_neg hname, if_neg fun heq => hname (eq_of_beq heq).symm]

/-- **A tally finds the listed actions**, each under the number of times that it is listed. -/
theorem find?_tally (actions : List String) (name : String) :
    (tally actions).find? name = if name ∈ actions then some (actions.count name) else none := by
  induction actions with
  | nil => rfl
  | cons action actions ih =>
    show (add action 1 (tally actions)).find? name = _
    rw [find?_add, count_tally, ih]
    by_cases hname : name = action
    · subst hname
      simp
    · simp [hname, List.count_cons_of_ne (Ne.symm hname)]

/-- The tally of two lists together counts an action as often as both tallies do, and lists it if one
of them does. -/
theorem find?_tally_append (actions actions' : List String) (name : String) :
    (tally (actions ++ actions')).find? name
      = Option.merge (· + ·) ((tally actions).find? name) ((tally actions').find? name) := by
  rw [find?_tally, find?_tally, find?_tally, List.count_append]
  by_cases h : name ∈ actions
  · by_cases h' : name ∈ actions'
    · simp [h, h']
    · simp [h, h', List.count_eq_zero.mpr h']
  · by_cases h' : name ∈ actions'
    · simp [h, h', List.count_eq_zero.mpr h]
    · simp [h, h']

/-- **The counts of a tally sum up to the length of its list**, and so they do for any part of it
that a property of the actions selects. -/
theorem total_tally (actions : List String) (p : String → Bool) :
    (tally actions).total p = actions.countP p := by
  induction actions with
  | nil => rfl
  | cons action actions ih =>
    show (add action 1 (tally actions)).total p = _
    rw [total_add, ih, List.countP_cons]

end Usage

end DialogueScript
