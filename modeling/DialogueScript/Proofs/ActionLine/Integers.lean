/-
# Integers as parameters

A parameter that is read as an integer is read as the integer it says, at any length: the grammar of
integer texts gives its value, and it is handed out if 32 bits hold it.  Nothing wraps around, and
what does not fit is refused like a text that says no integer at all.

A read of an ordinal is a read of an integer that refuses what is not positive.  It reports the text
where there is no integer, and the value where there is one; the value is written in its shortest
form (`CanonicalInteger`), which is refused again in the same words.
-/
import DialogueScript.Proofs.ActionLine.TypedValues
import DialogueScript.Proofs.Json.Printing

namespace DialogueScript

/-! ### Integers of 32 bits -/

/-- The shortest text of an integer: no plus, no zero before other digits, no minus before zero. -/
inductive CanonicalInteger : Int → List Char → Prop
  | natural {n digits} : NaturalText n digits → CanonicalInteger n digits
  | negative {n digits} : 0 < n → NaturalText n digits → CanonicalInteger (-n) ('-' :: digits)

theorem canonicalInteger_renderInteger (value : Int) :
    CanonicalInteger value (renderInteger value) := by
  have hdigits := naturalText_renderNatural value.natAbs
  rw [renderInteger]
  split
  · next hnegative =>
    have hvalue : value = -(value.natAbs : Int) := by omega
    have hpositive : 0 < value.natAbs := by omega
    have hcanonical := CanonicalInteger.negative hpositive hdigits
    rwa [← hvalue] at hcanonical
  · next hnatural =>
    have hvalue : value = value.natAbs := by omega
    have hcanonical := CanonicalInteger.natural hdigits
    rwa [← hvalue] at hcanonical

/-- **A text is read as the integer of 32 bits that it says**, and nothing else is read. -/
theorem int32?_eq_some_iff {text : List Char} {value : Int32} :
    int32? text = some value ↔ IntegerText value.toInt text := by
  have hrange : Int32.minValue.toInt ≤ value.toInt ∧ value.toInt ≤ Int32.maxValue.toInt :=
    ⟨value.minValue_le_toInt, value.toInt_le⟩
  rw [← integer?_eq_some_iff]
  rcases hwritten : integer? text with - | written
  · simp only [int32?, hwritten, reduceCtorEq]
  · simp only [int32?, hwritten]
    constructor
    · intro h
      split at h
      · next hfits =>
        obtain rfl := Option.some.inj h
        rw [Int32.toInt_ofInt_of_le hfits.1 (Int.lt_add_one_of_le hfits.2)]
      · cases h
    · intro h
      obtain rfl := Option.some.inj h
      rw [if_pos hrange, Int32.ofInt_toInt]

/-- An integer text is read if its value lies between the least and the largest of 32 bits. -/
theorem exists_int32?_eq_some_iff {text : List Char} :
    (∃ value, int32? text = some value) ↔
      ∃ value, IntegerText value text ∧ -2 ^ 31 ≤ value ∧ value ≤ 2 ^ 31 - 1 := by
  simp only [int32?_eq_some_iff]
  constructor
  · rintro ⟨value, htext⟩
    exact ⟨value.toInt, htext, value.minValue_le_toInt, value.toInt_le⟩
  · rintro ⟨value, htext, hlow, hhigh⟩
    refine ⟨Int32.ofInt value, ?_⟩
    rwa [Int32.toInt_ofInt_of_le hlow (by omega)]

namespace ActionLine

variable {line : ActionLine} {token : String}

/-! ### Reads of a parameter that is there -/

/-- What a read of an integer answers, by what the parameter says. -/
theorem answer_integer_eq (hnext : line.next? = some token) (name : String) :
    line.answer ⟨.integer, name⟩ =
      match int32? token.toList with
      | some value => (.ok (.integer value), line.advance)
      | none => (.error (.wrongType "integer" name token), line) := by
  rw [answer_of_take (convertInteger name) .integer rfl hnext, convertInteger]
  rcases int32? token.toList with - | value
  · rfl
  · rfl

/-- What a read of an ordinal answers, by what the parameter says. -/
theorem answer_ordinal_eq (hnext : line.next? = some token) (name : String) :
    line.answer ⟨.ordinal, name⟩ =
      match int32? token.toList with
      | some value =>
        if 0 < value.toInt then (.ok (.integer value), line.advance)
        else (.error (.wrongType "one-based integer" name
          (String.ofList (renderInteger value.toInt))), line)
      | none => (.error (.wrongType "integer" name token), line) := by
  rw [answer_of_take (convertOrdinal name) .integer rfl hnext, convertOrdinal, convertInteger]
  rcases int32? token.toList with - | value
  · rfl
  · by_cases hpositive : 0 < value.toInt
    · simp only [if_pos hpositive]
    · simp only [if_neg hpositive]
      rfl

/-- A value that is not positive is refused in the same words when it is read from its shortest
form. -/
theorem answer_ordinal_shown {value : Int32} (hvalue : value.toInt ≤ 0) {line : ActionLine}
    (hnext : line.next? = some (String.ofList (renderInteger value.toInt))) (name : String) :
    line.answer ⟨.ordinal, name⟩
      = (.error (.wrongType "one-based integer" name
          (String.ofList (renderInteger value.toInt))), line) := by
  rw [answer_ordinal_eq hnext, String.toList_ofList, int32?_renderInteger]
  exact if_neg (Int.not_lt.mpr hvalue)

/-! ### Integers -/

/-- How a parameter `token` is read as an integer. -/
structure ReadsInteger (line : ActionLine) (token : String) (name : String) :
    Prop where
  /-- The integer that is handed out is the one that is written. -/
  eq_ok_iff : ∀ value,
    line.answer ⟨.integer, name⟩ = (.ok (.integer value), line.advance)
    ↔ IntegerText value.toInt token.toList
  /-- An integer is handed out if one is written that 32 bits hold. -/
  exists_ok_iff :
    (∃ value, line.answer ⟨.integer, name⟩ = (.ok (.integer value), line.advance)) ↔
      ∃ value, IntegerText value token.toList ∧ -2 ^ 31 ≤ value ∧ value ≤ 2 ^ 31 - 1
  /-- Otherwise the parameter is refused as it stands, and the line is as before. -/
  eq_error : (¬ ∃ value, IntegerText value token.toList ∧ -2 ^ 31 ≤ value ∧ value ≤ 2 ^ 31 - 1) →
    line.answer ⟨.integer, name⟩ = (.error (.wrongType "integer" name token), line)

/-- How a parameter `token` is read as an ordinal, by how it is read as an integer. -/
structure ReadsOrdinal (line : ActionLine) (token : String) (name : String) :
    Prop where
  /-- A positive integer is handed out. -/
  eq_ok_iff : ∀ value,
    line.answer ⟨.ordinal, name⟩ = (.ok (.integer value), line.advance)
    ↔ line.answer ⟨.integer, name⟩ = (.ok (.integer value), line.advance) ∧
      0 < value.toInt
  /-- What is no integer is refused in the same words. -/
  eq_error : ∀ e, line.answer ⟨.integer, name⟩ = (.error e, line) →
    line.answer ⟨.ordinal, name⟩ = (.error e, line)
  /-- An integer that is not positive is refused by its value, and so is the shortest text of that
  value wherever it is read. -/
  eq_refused : ∀ value,
    line.answer ⟨.integer, name⟩ = (.ok (.integer value), line.advance) →
    value.toInt ≤ 0 → ∃ shown, CanonicalInteger value.toInt shown.toList ∧
      line.answer ⟨.ordinal, name⟩ = (.error (.wrongType "one-based integer" name shown), line) ∧
      ∀ line' : ActionLine, line'.next? = some shown →
        line'.answer ⟨.ordinal, name⟩ = (.error (.wrongType "one-based integer" name shown), line')

theorem readsInteger_of_next? (hnext : line.next? = some token) (name : String) :
    ReadsInteger line token name := by
  have hanswer := answer_integer_eq hnext name
  have hiff : ∀ value,
      line.answer ⟨.integer, name⟩ = (.ok (.integer value), line.advance) ↔
        int32? token.toList = some value := by
    intro value
    rw [hanswer]
    rcases int32? token.toList with - | written
    · exact iff_of_false nofun nofun
    · simp
  refine ⟨fun value => (hiff value).trans int32?_eq_some_iff, ?_, fun hnone => ?_⟩
  · simp only [hiff]
    exact exists_int32?_eq_some_iff
  · rw [← exists_int32?_eq_some_iff, ← Option.ne_none_iff_exists', not_not] at hnone
    rw [hanswer, hnone]

theorem readsOrdinal_of_next? (hnext : line.next? = some token) (name : String) :
    ReadsOrdinal line token name := by
  have hinteger := answer_integer_eq hnext name
  have hordinal := answer_ordinal_eq hnext name
  rcases htoken : int32? token.toList with - | value
  · -- no integer: both reads fail alike
    simp only [htoken] at hinteger hordinal
    refine ⟨fun value => ?_, fun e he => ?_, fun value hvalue => ?_⟩
    · rw [hinteger, hordinal]
      exact iff_of_false nofun fun h => nomatch h.1
    · rw [hordinal, ← hinteger, he]
    · rw [hinteger] at hvalue
      cases hvalue
  · simp only [htoken] at hinteger hordinal
    have hread : ∀ value',
        line.answer ⟨.integer, name⟩ = (.ok (.integer value'), line.advance) →
          value = value' := by
      intro value' h
      rw [hinteger] at h
      exact ReadValue.integer.inj (Except.ok.inj (Prod.mk.inj h).1)
    by_cases hpositive : 0 < value.toInt
    · rw [if_pos hpositive] at hordinal
      refine ⟨fun value' => ?_, fun e he => ?_, fun value' hvalue' hle => ?_⟩
      · rw [hordinal, ← hinteger]
        exact ⟨fun h => ⟨h, hread value' h ▸ hpositive⟩, And.left⟩
      · rw [hordinal, ← hinteger, he]
      · obtain rfl := hread value' hvalue'
        exact absurd hpositive (Int.not_lt.mpr hle)
    · rw [if_neg hpositive] at hordinal
      refine ⟨fun value' => ?_, fun e he => ?_, fun value' hvalue' hle => ?_⟩
      · rw [hordinal]
        exact iff_of_false nofun fun h => hpositive (hread value' h.1 ▸ h.2)
      · rw [hinteger] at he
        cases he
      · obtain rfl := hread value' hvalue'
        refine ⟨_, ?_, hordinal, fun line' hnext' => ?_⟩
        · rw [String.toList_ofList]
          exact canonicalInteger_renderInteger value.toInt
        · exact answer_ordinal_shown hle hnext' name

/-- **Integers are read exactly**, whatever their length.  A read of an integer hands out the value
that is written if 32 bits hold it, and refuses every other parameter as it stands.  A read of an
ordinal does the same for what is positive, and refuses an integer that is not by its value.  Only
a parameter that is handed out is consumed. -/
theorem answer_integer_exact (hnext : line.next? = some token) (name : String) :
    ReadsInteger line token name ∧ ReadsOrdinal line token name ∧
      (line.advance).position = line.position + 1 :=
  ⟨readsInteger_of_next? hnext name, readsOrdinal_of_next? hnext name, rfl⟩

/-- The law at the least integer, written with leading zeros, behind a parameter that was read. -/
theorem answer_integer_exact_of_least :
    let line : ActionLine := ⟨"shake", ["x", "-0002147483648", "y"], 1⟩
    line.next? = some "-0002147483648" ∧
      line.answer ⟨.integer, "times"⟩
        = (.ok (.integer (-2147483648)), ⟨"shake", ["x", "-0002147483648", "y"], 2⟩) ∧
      IntegerText (-2147483648) "-0002147483648".toList ∧
      ∃ shown, CanonicalInteger (-2147483648) shown.toList ∧
        line.answer ⟨.ordinal, "times"⟩
          = (.error (.wrongType "one-based integer" "times" shown), line) := by
  intro line
  have hnext : line.next? = some "-0002147483648" := rfl
  have hanswer : line.answer ⟨.integer, "times"⟩
      = (.ok (.integer (-2147483648)), ⟨"shake", ["x", "-0002147483648", "y"], 2⟩) := by
    decide +kernel
  obtain ⟨hinteger, hordinal, -⟩ := answer_integer_exact hnext "times"
  obtain ⟨shown, hshown, hrefused, -⟩ := hordinal.eq_refused _ hanswer (by decide)
  exact ⟨hnext, hanswer, (hinteger.eq_ok_iff _).mp hanswer, shown, hshown, hrefused⟩

end ActionLine

end DialogueScript
