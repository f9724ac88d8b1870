/-
# Lines of typed values

A line may be written from values of several types: integers and ordinals in decimal digits, texts
without a separator as they stand.  `TypedValue` lists what can be written, each value with what it
must satisfy.  Reading the parameters of such a line, each as the type that was written, gives the
values back (`parse_typedLine`).

Two facts carry this.  No separator stands in what is written (`separable_encode`), so the line is cut
where it was put together; and what is written for a value is read as that value
(`value?_encode`).  The reads then go through the values one by one (`run_encode`), and behind
the last one every further read finds the line used up (`answersTo_of_next?_eq_none`).  To follow
the values, a line is looked at from its place on: `pending` are the parameters still to come.
-/
import DialogueScript.Proofs.ActionLine.Rendering

namespace DialogueScript

/-! ### Numbers -/

theorem int32?_renderInteger (value : Int32) :
    int32? (renderInteger value.toInt) = some value := by
  have hrange : Int32.minValue.toInt ≤ value.toInt ∧ value.toInt ≤ Int32.maxValue.toInt :=
    ⟨value.minValue_le_toInt, value.toInt_le⟩
  simp only [int32?, integer?_renderInteger]
  rw [if_pos hrange, Int32.ofInt_toInt]

/-- What is written for an integer are digits, and at most a minus. -/
theorem mem_renderInteger {value : Int} {c : Char} (h : c ∈ renderInteger value) :
    c = '-' ∨ c.isDigit = true := by
  rw [renderInteger] at h
  split at h
  · rcases List.mem_cons.mp h with hminus | hdigit
    · exact .inl hminus
    · exact .inr (isDigit_of_mem_renderNatural hdigit)
  · exact .inr (isDigit_of_mem_renderNatural h)

/-! ### Typed values -/

/-- A text that can be a parameter as it stands. -/
def Plain (text : String) : Prop :=
  ':' ∉ text.toList ∧ ',' ∉ text.toList

theorem plain_renderInteger (value : Int) : Plain (String.ofList (renderInteger value)) := by
  rw [Plain, String.toList_ofList]
  constructor
  · intro h
    rcases mem_renderInteger h with hminus | hdigit
    · cases hminus
    · cases hdigit
  · intro h
    rcases mem_renderInteger h with hminus | hdigit
    · cases hminus
    · cases hdigit

/-- A value that can be written as a parameter, and the type as which it is to be read. -/
inductive TypedValue where
  | integer (value : Int32)
  | ordinal (value : Int32) (pos : 0 < value.toInt)
  | text (value : String) (plain : Plain value)
  | optionalText (value : String) (plain : Plain value)

namespace TypedValue

/-- The parameter that is written for a value. -/
def encode : TypedValue → String
  | integer value | ordinal value _ => String.ofList (renderInteger value.toInt)
  | text value _ | optionalText value _ => value

/-- The kind of read that is made for a value. -/
def kind : TypedValue → ReadKind
  | integer _ => .integer
  | ordinal .. => .ordinal
  | text .. => .text
  | optionalText .. => .optionalText

/-- What that read is to give. -/
def toReadValue : TypedValue → ReadValue
  | integer value | ordinal value _ => .integer value
  | text value _ | optionalText value _ => .text value

/-- **What is written for a value is read as that value.** -/
theorem value?_encode (value : TypedValue) :
    value.kind.value? value.encode = some value.toReadValue := by
  cases value with
  | integer value => simp [encode, kind, toReadValue, ReadKind.value?, int32?_renderInteger]
  | ordinal value pos =>
    simp [encode, kind, toReadValue, ReadKind.value?, int32?_renderInteger, pos]
  | text | optionalText => rfl

theorem plain_encode (value : TypedValue) : Plain value.encode := by
  cases value with
  | integer | ordinal => exact plain_renderInteger _
  | text _ plain | optionalText _ plain => exact plain

end TypedValue

namespace ActionLine

variable {action : String} {values : List TypedValue}

theorem separable_encode (haction : ':' ∉ action.toList) (hvalues : values ≠ []) :
    Separable action (values.map TypedValue.encode) := by
  refine ⟨mt List.map_eq_nil_iff.mp hvalues, haction, ?_⟩
  intro parameter hparameter
  obtain ⟨value, -, rfl⟩ := List.mem_map.mp hparameter
  exact value.plain_encode

/-! ### Reading them -/

/-- A parameter that has a value of the kind requested is handed out. -/
theorem answer_of_value? {request : Request} {line : ActionLine} {token : String}
    {value : ReadValue} (hnext : line.next? = some token)
    (hvalue : request.kind.value? token = some value) :
    line.answer request = (.ok value, line.advance) := by
  have hstep := readStep_answer request line
  generalize line.answer request = result at hstep ⊢
  cases hstep with
  | missing hnone | absent hnone => simp [hnext] at hnone
  | handedOut hnext' hvalue' =>
    obtain rfl := Option.some.inj (hnext.symm.trans hnext')
    obtain rfl := Option.some.inj (hvalue.symm.trans hvalue')
    rfl
  | refused hnext' hnone =>
    obtain rfl := Option.some.inj (hnext.symm.trans hnext')
    simp [hvalue] at hnone

/-- A read that takes the next parameter and converts it hands out what the conversion gives, or
fails as the conversion does. -/
theorem answer_of_take {α : Type} (convert : String → Except LineError α) (wrap : α → ReadValue)
    {request : Request} {line : ActionLine} {token : String}
    (hreader : reader request = wrap <$> take convert request.name)
    (hnext : line.next? = some token) :
    line.answer request =
      match convert token with
      | .ok value => (.ok (wrap value), line.advance)
      | .error e => (.error e, line) := by
  rw [answer, hreader, run_map, run_take, hnext]
  dsimp only
  cases convert token with
  | ok value => rfl
  | error e => rfl

/-- What a request is answered where no parameter is left. -/
def exhaustedAnswer (request : Request) : Answer :=
  if request.kind = .optionalText then .ok .absent
  else .error (.missingParameter request.name)

/-- Where no parameter is left, a read finds none and changes nothing. -/
theorem answer_of_next?_eq_none {line : ActionLine} (hnone : line.next? = none)
    (request : Request) : line.answer request = (exhaustedAnswer request, line) := by
  have hstep := readStep_answer request line
  generalize line.answer request = result at hstep ⊢
  cases hstep with
  | missing _ hkind => rw [exhaustedAnswer, if_neg hkind]
  | absent _ hkind => rw [exhaustedAnswer, if_pos hkind]
  | handedOut hnext | refused hnext => simp [hnone] at hnext

theorem answersTo_of_next?_eq_none {line : ActionLine} (hnone : line.next? = none)
    (requests : List Request) : line.answersTo requests = requests.map exhaustedAnswer := by
  induction requests with
  | nil => rfl
  | cons request requests ih =>
    rw [answersTo_cons, answer_of_next?_eq_none hnone, ih, List.map_cons]

/-- The parameters from the place reached on. -/
def pending (line : ActionLine) : List String :=
  line.parameters.drop line.position

/-- The next parameter is the first one to come, -/
theorem head?_pending (line : ActionLine) : line.pending.head? = line.next? :=
  List.head?_drop

/-- and moving on leaves the others. -/
theorem pending_advance (line : ActionLine) : line.advance.pending = line.pending.tail :=
  List.tail_drop.symm

/-- **The values come back one by one**, and use up the parameters that were written for them. -/
theorem run_encode {line : ActionLine} {requests : List Request}
    (hpending : line.pending = values.map TypedValue.encode)
    (hkinds : requests.map Request.kind = values.map TypedValue.kind) :
    line.answersTo requests = values.map (fun value => .ok value.toReadValue) ∧
      (line.after requests).next? = none := by
  induction values generalizing line requests with
  | nil =>
    obtain rfl := List.map_eq_nil_iff.mp hkinds
    refine ⟨rfl, ?_⟩
    rw [after_nil, ← head?_pending, hpending, List.map_nil, List.head?_nil]
  | cons value values ih =>
    obtain ⟨request, requests, rfl, hkind, hkinds⟩ := List.map_eq_cons_iff.mp hkinds
    have hnext : line.next? = some value.encode := by
      rw [← head?_pending, hpending, List.map_cons, List.head?_cons]
    have hvalue : request.kind.value? value.encode = some value.toReadValue := by
      rw [hkind]
      exact value.value?_encode
    have hrest : line.advance.pending = values.map TypedValue.encode := by
      rw [pending_advance, hpending, List.map_cons, List.tail_cons]
    obtain ⟨hanswers, hdone⟩ := ih hrest hkinds
    rw [answersTo_cons, after_cons, answer_of_value? hnext hvalue]
    exact ⟨by rw [hanswers, List.map_cons], hdone⟩

/-- **A line of typed values gives them back.**  It parses with the action that was written, and reads
of the kinds that were written, under any labels, give the values in their order and use up the line;
behind them an optional read finds nothing, and any other lacks its parameter. -/
theorem parse_typedLine (haction : ':' ∉ action.toList) (hvalues : values ≠ []) :
    ∃ line,
      parse ("<" ++ action ++ ":" ++ ",".intercalate (values.map TypedValue.encode) ++ ">")
        = .ok line ∧
      line.action = action ∧
      ∀ requests : List Request, requests.map Request.kind = values.map TypedValue.kind →
        line.answersTo requests = values.map (fun value => .ok value.toReadValue) ∧
        (line.after requests).position = values.length ∧
        (line.after requests).isFullyRead = true ∧
        ∀ later, (line.after requests).answersTo later = later.map fun request =>
          if request.kind = .optionalText then .ok .absent
          else .error (.missingParameter request.name) := by
  let line : ActionLine := ⟨action, values.map TypedValue.encode, 0⟩
  refine ⟨line, (separable_encode haction hvalues).parse_written, rfl, fun requests hkinds => ?_⟩
  have hpending : line.pending = values.map TypedValue.encode := rfl
  obtain ⟨hanswers, hnone⟩ := run_encode hpending hkinds
  have hstart : line.position ≤ line.parameters.length := Nat.zero_le _
  have hle := position_le_after requests hstart
  have hend := (next?_eq_none_iff_of_le hle).mp hnone
  refine ⟨hanswers, ?_, beq_iff_eq.mpr hend, answersTo_of_next?_eq_none hnone⟩
  rw [hend, parameters_after]
  exact List.length_map _

/-- The law at the smallest integer, an empty text and a text like a line, read under labels. -/
theorem parse_typedLine_of_extremes :
    let values : List TypedValue :=
      [.integer (-2147483648), .ordinal 2147483647 (by decide), .text "" ⟨by decide, by decide⟩,
        .optionalText "<é>\n" ⟨by decide, by decide⟩]
    let requests : List Request :=
      [⟨.integer, "low"⟩, ⟨.ordinal, "high"⟩, ⟨.text, ""⟩, ⟨.optionalText, "last"⟩]
    ':' ∉ "a,b".toList ∧ values ≠ [] ∧ requests.map Request.kind = values.map TypedValue.kind ∧
      ∃ line, parse "<a,b:-2147483648,2147483647,,<é>\n>" = .ok line ∧ line.action = "a,b" ∧
        line.answersTo requests = [.ok (.integer (-2147483648)), .ok (.integer 2147483647),
          .ok (.text ""), .ok (.text "<é>\n")] ∧
        (line.after requests).position = 4 ∧ (line.after requests).isFullyRead = true ∧
        (line.after requests).answersTo [⟨.asset, "more"⟩, ⟨.optionalText, "more"⟩]
          = [.error (.missingParameter "more"), .ok .absent] := by
  intro values requests
  have haction : ':' ∉ "a,b".toList := by decide
  have hvalues : values ≠ [] := List.cons_ne_nil _ _
  obtain ⟨line, hparse, hline, hreads⟩ := parse_typedLine haction hvalues
  obtain ⟨hanswers, hposition, hdone, hlater⟩ := hreads requests rfl
  have htext : "<a,b:-2147483648,2147483647,,<é>\n>"
      = "<" ++ "a,b" ++ ":" ++ ",".intercalate (values.map TypedValue.encode) ++ ">" := by
    decide +kernel
  refine ⟨haction, hvalues, rfl, line, ?_, hline, hanswers, hposition, hdone, hlater _⟩
  rw [htext]
  exact hparse

end ActionLine

end DialogueScript
