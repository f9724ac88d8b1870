/-
# Sequences of reads

A reader leaves a line behind whether it succeeds or fails.  Of `take`, on which all readers rest,
three facts say what that line is: a success hands out the conversion of the next parameter and moves
on by one (`take_eq_ok`), and a failure has a reason (`take_eq_error`) and leaves the line as it was
(`take_unchanged_of_error`).

So a read at some place of a line can do four things, and `ReadStep` lists them: where no parameter is
left it fails or, if the parameter was optional, answers that there is none; where one is left it
hands out the parameter, converted, or refuses it (`readStep_answer`).  A read never moves the place
beyond the last parameter, so in a parsed line it always lies within them (`position_le_after`).

What holds of a whole run follows by induction on its requests.  The place reached counts the answers
that handed something out (`position_after`), so the parameters are handed out in their order, none
is skipped, and none is handed out twice (`run_inOrder`).
-/
import DialogueScript.ActionLine.Reading
import DialogueScript.Proofs.ActionLine.Grammar

namespace DialogueScript

/-! ### Values and answers -/

/-- The value of a parameter that is read as some kind, whatever the label. -/
def ReadKind.value? : ReadKind → String → Option ReadValue
  | .text, token => some (.text token)
  | .optionalText, token => some (.text token)
  | .integer, token => (int32? token.toList).map .integer
  | .ordinal, token =>
    ((int32? token.toList).filter fun value => 0 < value.toInt).map .integer
  | .number, token => (Single.ofText? token.toList).map .number
  | .asset, token => some (.asset (AssetName.ofRaw token))

/-- Whether an answer hands out a parameter: it is no error, and no missing optional parameter. -/
def Answer.isValue : Answer → Bool
  | .ok .absent => false
  | .ok _ => true
  | .error _ => false

/-- A parameter that is there is never answered as absent. -/
theorem isValue_of_value?_eq_some {kind : ReadKind} {token : String} {value : ReadValue}
    (h : kind.value? token = some value) : Answer.isValue (.ok value) = true := by
  cases value with
  | absent => cases kind <;> simp [ReadKind.value?] at h
  | _ => rfl

namespace ActionLine

/-! ### Readers -/

section Readers

variable {α β : Type} {convert : String → Except LineError α} {name : String}
variable {line line' : ActionLine}

theorem run_get_bind (next : ActionLine → Reader α) (line : ActionLine) :
    (get >>= next).run line = (next line).run line :=
  rfl

/-- Changing the values of a reader changes neither its errors nor the lines it leaves. -/
theorem run_map (wrap : α → β) (reader : Reader α) (line : ActionLine) :
    (wrap <$> reader).run line = ((reader.run line).1.map wrap, (reader.run line).2) := by
  rw [ExceptT.run_map]
  rfl

/-- An error is handled at the line that the failing reader leaves. -/
theorem run_tryCatch (reader : Reader α) (handle : LineError → Reader α) (line : ActionLine) :
    (tryCatch reader handle).run line =
      match reader.run line with
      | (.ok value, line') => (.ok value, line')
      | (.error e, line') => (handle e).run line' := by
  show StateT.run (tryCatch reader handle).run line =
    match StateT.run reader.run line with
    | (.ok value, line') => (.ok value, line')
    | (.error e, line') => (handle e).run line'
  rw [ExceptT.run_tryCatch, StateT.run_bind]
  rcases StateT.run reader.run line with ⟨e | value, line'⟩
  · rfl
  · rfl

/-! #### Taking a parameter -/

/-- What `take` does, by the parameter at the place reached and its conversion. -/
theorem run_take (convert : String → Except LineError α) (name : String) (line : ActionLine) :
    (take convert name).run line =
      match line.next? with
      | none => (.error (.missingParameter name), line)
      | some token =>
        match convert token with
        | .error e => (.error e, line)
        | .ok value => (.ok value, line.advance) := by
  rw [take, run_get_bind]
  cases line.next? with
  | none => rfl
  | some token =>
    dsimp only
    cases convert token with
    | error e => rfl
    | ok value => rfl

/-- **A parameter that cannot be taken is left where it is.** -/
theorem take_unchanged_of_error {e : LineError}
    (h : (take convert name).run line = (.error e, line')) : line' = line := by
  rw [run_take] at h
  split at h
  · exact (Prod.mk.inj h).2.symm
  · split at h
    · exact (Prod.mk.inj h).2.symm
    · cases h

/-- A parameter cannot be taken if there is none, or if its conversion fails. -/
theorem take_eq_error {e : LineError}
    (h : (take convert name).run line = (.error e, line')) :
    (line.next? = none ∧ e = .missingParameter name) ∨
      ∃ token, line.next? = some token ∧ convert token = .error e := by
  rw [run_take] at h
  split at h
  · next hnone => exact .inl ⟨hnone, (Except.error.inj (Prod.mk.inj h).1).symm⟩
  · next token hsome =>
    split at h
    · next hconvert =>
      obtain rfl := Except.error.inj (Prod.mk.inj h).1
      exact .inr ⟨token, hsome, hconvert⟩
    · cases h

/-- A parameter that is taken is the next one, and the place moves on by one. -/
theorem take_eq_ok {value : α} (h : (take convert name).run line = (.ok value, line')) :
    ∃ token, line.next? = some token ∧ convert token = .ok value ∧ line' = line.advance := by
  rw [run_take] at h
  split at h
  · cases h
  · next token hsome =>
    split at h
    · cases h
    · next hconvert =>
      obtain ⟨hvalue, rfl⟩ := Prod.mk.inj h
      obtain rfl := Except.ok.inj hvalue
      exact ⟨token, hsome, hconvert, rfl⟩

/-- An optional text is a text, but a missing one is no error. -/
theorem run_takeOptionalText (name : String) (line : ActionLine) :
    (takeOptionalText name).run line =
      match (takeText name).run line with
      | (.ok value, line') => (.ok (some value), line')
      | (.error e, line') => (if e.isMissingParameter then .ok none else .error e, line') := by
  rw [takeOptionalText, run_tryCatch, run_map]
  rcases (takeText name).run line with ⟨e | value, line'⟩
  · show (if e.isMissingParameter then pure none else throw e : Reader (Option String)).run line'
      = (if e.isMissingParameter then .ok none else .error e, line')
    cases e.isMissingParameter with
    | false => rfl
    | true => rfl
  · rfl

end Readers

/-! ### One read -/

/-- What a read can answer, and the line after it. -/
inductive ReadStep (request : Request) (line : ActionLine) : Answer × ActionLine → Prop
  | missing : line.next? = none → request.kind ≠ .optionalText →
      ReadStep request line (.error (.missingParameter request.name), line)
  | absent : line.next? = none → request.kind = .optionalText →
      ReadStep request line (.ok .absent, line)
  | handedOut {token value} : line.next? = some token →
      request.kind.value? token = some value →
      ReadStep request line (.ok value, line.advance)
  | refused {token description shown} : line.next? = some token →
      request.kind.value? token = none →
      ReadStep request line (.error (.wrongType description request.name shown), line)

/-- A conversion of a parameter agrees with its value as the kind requested, and an error of it is
about the type. -/
def Agrees {α : Type} (request : Request) (wrap : α → ReadValue) (token : String) :
    Except LineError α → Prop
  | .ok value => request.kind.value? token = some (wrap value)
  | .error e => request.kind.value? token = none ∧
      ∃ description shown, e = .wrongType description request.name shown

/-- A reader that takes the next parameter and converts it makes one of the steps. -/
theorem readStep_of_take {α : Type} (convert : String → Except LineError α)
    (wrap : α → ReadValue) {request : Request} (line : ActionLine)
    (hreader : reader request = wrap <$> take convert request.name)
    (hkind : request.kind ≠ .optionalText)
    (hagrees : ∀ token, Agrees request wrap token (convert token)) :
    ReadStep request line (line.answer request) := by
  rw [answer, hreader, run_map]
  rcases htake : (take convert request.name).run line with ⟨e | value, line'⟩
  · obtain rfl := take_unchanged_of_error htake
    rcases take_eq_error htake with ⟨hnone, rfl⟩ | ⟨token, hnext, hconvert⟩
    · exact .missing hnone hkind
    · have h := hagrees token
      rw [hconvert] at h
      obtain ⟨hrefused, description, shown, rfl⟩ := h
      exact .refused hnext hrefused
  · obtain ⟨token, hnext, hconvert, rfl⟩ := take_eq_ok htake
    have h := hagrees token
    rw [hconvert] at h
    exact .handedOut hnext h

/-- A read of an optional text makes one of the steps. -/
theorem readStep_optionalText (name : String) (line : ActionLine) :
    ReadStep ⟨.optionalText, name⟩ line (line.answer ⟨.optionalText, name⟩) := by
  rw [answer, reader, run_map, run_takeOptionalText]
  rcases htake : (takeText name).run line with ⟨e | value, line'⟩
  · obtain rfl := take_unchanged_of_error htake
    rcases take_eq_error htake with ⟨hnone, rfl⟩ | ⟨token, -, hconvert⟩
    · exact .absent hnone rfl
    · cases hconvert
  · obtain ⟨token, hnext, hconvert, rfl⟩ := take_eq_ok htake
    obtain rfl := Except.ok.inj hconvert
    exact .handedOut hnext rfl

/-! #### The conversions agree with the values -/

theorem agrees_convertInteger (name token : String) :
    Agrees ⟨.integer, name⟩ .integer token (convertInteger name token) := by
  rcases h : int32? token.toList with - | value
  · simp only [convertInteger, h]
    exact ⟨by simp [ReadKind.value?, h], _, _, rfl⟩
  · simp only [convertInteger, h]
    simp [Agrees, ReadKind.value?, h]

theorem agrees_convertOrdinal (name token : String) :
    Agrees ⟨.ordinal, name⟩ .integer token (convertOrdinal name token) := by
  rcases h : int32? token.toList with - | value
  · simp only [convertOrdinal, convertInteger, h]
    exact ⟨by simp [ReadKind.value?, h], _, _, rfl⟩
  · simp only [convertOrdinal, convertInteger, h]
    by_cases hpos : 0 < value.toInt
    · simp [Agrees, ReadKind.value?, h, hpos]
    · simp only [hpos, if_false]
      exact ⟨by simpa [ReadKind.value?, h] using Int.not_lt.mp hpos, _, _, rfl⟩

theorem agrees_convertNumber (name token : String) :
    Agrees ⟨.number, name⟩ .number token (convertNumber name token) := by
  rcases h : Single.ofText? token.toList with - | value
  · simp only [convertNumber, h]
    exact ⟨by simp [ReadKind.value?, h], _, _, rfl⟩
  · simp only [convertNumber, h]
    simp [Agrees, ReadKind.value?, h]

/-- **What a read does** is one of the four steps. -/
theorem readStep_answer (request : Request) (line : ActionLine) :
    ReadStep request line (line.answer request) := by
  obtain ⟨kind, name⟩ := request
  cases kind with
  | text => exact readStep_of_take .ok .text line rfl (by simp) fun token => rfl
  | optionalText => exact readStep_optionalText name line
  | integer =>
    exact readStep_of_take (convertInteger name) .integer line rfl (by simp)
      (agrees_convertInteger name)
  | ordinal =>
    exact readStep_of_take (convertOrdinal name) .integer line rfl (by simp)
      (agrees_convertOrdinal name)
  | number =>
    exact readStep_of_take (convertNumber name) .number line rfl (by simp)
      (agrees_convertNumber name)
  | asset =>
    exact readStep_of_take (fun token => .ok (AssetName.ofRaw token)) .asset line rfl (by simp)
      fun token => rfl

/-! ### The place and the parameters -/

section Place

variable {line : ActionLine}

theorem next?_eq_none_iff : line.next? = none ↔ line.parameters.length ≤ line.position :=
  List.getElem?_eq_none_iff

/-- Where the place lies within the parameters, nothing is left exactly at their end. -/
theorem next?_eq_none_iff_of_le (h : line.position ≤ line.parameters.length) :
    line.next? = none ↔ line.position = line.parameters.length :=
  next?_eq_none_iff.trans ⟨fun h' => Nat.le_antisymm h h', fun h' => h'.ge⟩

theorem position_lt_of_next? {token : String} (h : line.next? = some token) :
    line.position < line.parameters.length :=
  (List.getElem?_eq_some_iff.mp h).1

/-- Counting what is left does not go below zero. -/
theorem position_add_unread (h : line.position ≤ line.parameters.length) :
    line.position + line.unread = line.parameters.length :=
  Nat.add_sub_of_le h

theorem isFullyRead_iff_unread_eq_zero (h : line.position ≤ line.parameters.length) :
    line.isFullyRead = true ↔ line.unread = 0 := by
  rw [isFullyRead, unread, beq_iff_eq]
  omega

end Place

/-! ### What a step keeps and changes -/

variable {request : Request} {line : ActionLine} {result : Answer × ActionLine}

theorem ReadStep.action_eq (h : ReadStep request line result) : result.2.action = line.action := by
  cases h <;> rfl

theorem ReadStep.parameters_eq (h : ReadStep request line result) :
    result.2.parameters = line.parameters := by
  cases h <;> rfl

/-- The place moves by one where a parameter is handed out, and otherwise not at all. -/
theorem ReadStep.position_eq (h : ReadStep request line result) :
    result.2.position = line.position + if result.1.isValue then 1 else 0 := by
  cases h with
  | handedOut _ hvalue =>
    rw [if_pos (isValue_of_value?_eq_some hvalue)]
    rfl
  | _ => rfl

/-- A parameter is handed out only where there is one, so the place stays within them. -/
theorem ReadStep.position_le (h : ReadStep request line result)
    (hle : line.position ≤ line.parameters.length) :
    result.2.position ≤ result.2.parameters.length := by
  cases h with
  | handedOut hnext _ => exact position_lt_of_next? hnext
  | _ => exact hle

/-- Where nothing is handed out, the line is as before. -/
theorem ReadStep.line_eq (h : ReadStep request line result) (hvalue : result.1.isValue = false) :
    result.2 = line := by
  cases h with
  | handedOut _ hsome => simp [isValue_of_value?_eq_some hsome] at hvalue
  | _ => rfl

/-- What is handed out is the parameter at the place reached, as the kind requested. -/
theorem ReadStep.value_eq (h : ReadStep request line result) (hvalue : result.1.isValue = true) :
    ∃ token value, line.parameters[line.position]? = some token ∧
      request.kind.value? token = some value ∧ result.1 = .ok value := by
  cases h with
  | handedOut hnext hsome => exact ⟨_, _, hnext, hsome, rfl⟩
  | _ => simp [Answer.isValue] at hvalue

/-- A parameter is missing exactly for a read that needs one where none is left. -/
theorem ReadStep.eq_missing_iff (h : ReadStep request line result)
    (hle : line.position ≤ line.parameters.length) (name : String) :
    result.1 = .error (.missingParameter name) ↔
      request.kind ≠ .optionalText ∧ line.position = line.parameters.length ∧
        name = request.name := by
  rw [← next?_eq_none_iff_of_le hle]
  cases h with
  | missing hnone hkind =>
    simp only [Except.error.injEq, LineError.missingParameter.injEq]
    exact ⟨fun hname => ⟨hkind, hnone, hname.symm⟩, fun h => h.2.2.symm⟩
  | absent _ hkind => simp [hkind]
  | handedOut hnext _ => simp [hnext]
  | refused hnext _ => simp [hnext]

/-- An optional read never fails. -/
theorem ReadStep.ne_error (h : ReadStep request line result) (hkind : request.kind = .optionalText)
    (e : LineError) : result.1 ≠ .error e := by
  cases h with
  | missing _ hrequired => exact absurd hkind hrequired
  | refused _ hnone => simp [hkind, ReadKind.value?] at hnone
  | _ => simp

/-- An optional read finds nothing exactly where no parameter is left. -/
theorem ReadStep.eq_absent_iff (h : ReadStep request line result)
    (hle : line.position ≤ line.parameters.length) (hkind : request.kind = .optionalText) :
    result.1 = .ok .absent ↔ line.position = line.parameters.length := by
  rw [← next?_eq_none_iff_of_le hle]
  cases h with
  | missing _ hrequired => exact absurd hkind hrequired
  | absent hnone _ => simp [hnone]
  | @handedOut token value hnext hsome =>
    constructor
    · intro habsent
      obtain rfl : value = .absent := Except.ok.inj habsent
      simp [hkind, ReadKind.value?] at hsome
    · intro hnone
      simp [hnext] at hnone
  | refused _ hnone => simp [hkind, ReadKind.value?] at hnone

/-! ### Runs -/

/-- The answers to a sequence of requests. -/
def answersTo (requests : List Request) (line : ActionLine) : List Answer :=
  (line.run requests).1

/-- The line after a sequence of requests. -/
def after (requests : List Request) (line : ActionLine) : ActionLine :=
  (line.run requests).2

@[simp] theorem answersTo_nil (line : ActionLine) : line.answersTo [] = [] := rfl

@[simp] theorem after_nil (line : ActionLine) : line.after [] = line := rfl

@[simp] theorem answersTo_cons (request : Request) (requests : List Request) (line : ActionLine) :
    line.answersTo (request :: requests)
      = (line.answer request).1 :: (line.answer request).2.answersTo requests := rfl

@[simp] theorem after_cons (request : Request) (requests : List Request) (line : ActionLine) :
    line.after (request :: requests) = (line.answer request).2.after requests := rfl

/-- A run goes on from where its beginning ends. -/
theorem after_append (before later : List Request) (line : ActionLine) :
    line.after (before ++ later) = (line.after before).after later := by
  induction before generalizing line with
  | nil => rfl
  | cons request before ih => exact ih _

theorem answersTo_append (before later : List Request) (line : ActionLine) :
    line.answersTo (before ++ later)
      = line.answersTo before ++ (line.after before).answersTo later := by
  induction before generalizing line with
  | nil => rfl
  | cons request before ih => exact congrArg _ (ih _)

theorem action_after (requests : List Request) (line : ActionLine) :
    (line.after requests).action = line.action := by
  induction requests generalizing line with
  | nil => rfl
  | cons request requests ih => exact (ih _).trans (readStep_answer request line).action_eq

theorem parameters_after (requests : List Request) (line : ActionLine) :
    (line.after requests).parameters = line.parameters := by
  induction requests generalizing line with
  | nil => rfl
  | cons request requests ih => exact (ih _).trans (readStep_answer request line).parameters_eq

/-- **The place stays within the parameters**, however the line is read. -/
theorem position_le_after (requests : List Request) {line : ActionLine}
    (h : line.position ≤ line.parameters.length) :
    (line.after requests).position ≤ (line.after requests).parameters.length := by
  induction requests generalizing line with
  | nil => exact h
  | cons request requests ih => exact ih ((readStep_answer request line).position_le h)

/-- **The place counts the parameters handed out.** -/
theorem position_after (requests : List Request) (line : ActionLine) :
    (line.after requests).position
      = line.position + (line.answersTo requests).countP Answer.isValue := by
  induction requests generalizing line with
  | nil => rfl
  | cons request requests ih =>
    rw [after_cons, ih, (readStep_answer request line).position_eq, answersTo_cons, List.countP_cons]
    omega

/-- What holds after any sequence of reads of a line, and how it relates to what is reached by
further reads. -/
structure InOrder (line : ActionLine) (before later : List Request) : Prop where
  action_eq : (line.after before).action = line.action
  parameters_eq : (line.after before).parameters = line.parameters
  /-- The place lies within the parameters. -/
  position_le : (line.after before).position ≤ line.parameters.length
  /-- So what is left is counted without going below zero, -/
  position_add_unread : (line.after before).position + (line.after before).unread
    = line.parameters.length
  /-- and nothing is left exactly of a line that is fully read. -/
  isFullyRead_iff : (line.after before).isFullyRead = true ↔ (line.after before).unread = 0
  /-- The place is the number of calls so far that handed something out. -/
  position_eq : (line.after before).position = (line.answersTo before).countP Answer.isValue
  /-- The place never moves back. -/
  position_mono : (line.after before).position ≤ (line.after (before ++ later)).position

/-- What a further read answers after some reads, `reached` being the line they lead to. -/
structure AnswersInOrder (line : ActionLine) (before : List Request) (request : Request)
    (reached : ActionLine) (reply : Answer) : Prop where
  /-- The reply is the next answer of the run. -/
  answersTo_eq : line.answersTo (before ++ [request]) = line.answersTo before ++ [reply]
  /-- A call that hands something out, after `i` of its like, hands out the parameter with index
  `i`, converted as its own kind. -/
  value_eq : reply.isValue = true →
    ∃ token value, line.parameters[(line.answersTo before).countP Answer.isValue]? = some token ∧
      request.kind.value? token = some value ∧ reply = .ok value
  /-- A call that hands nothing out changes nothing, and made again it has the same answer. -/
  unchanged : reply.isValue = false →
    line.after (before ++ [request]) = reached ∧
      line.answersTo (before ++ [request, request]) = line.answersTo before ++ [reply, reply]
  missing_iff : ∀ name, reply = .error (.missingParameter name) ↔
    request.kind ≠ .optionalText ∧ reached.position = line.parameters.length ∧
      name = request.name
  optional_ne_error : request.kind = .optionalText → ∀ e, reply ≠ .error e
  optional_absent_iff : request.kind = .optionalText →
    (reply = .ok .absent ↔ reached.position = line.parameters.length)

theorem inOrder_of_position_eq_zero {line : ActionLine} (h : line.position = 0)
    (before later : List Request) : InOrder line before later := by
  have hparameters := parameters_after before line
  have hle : (line.after before).position ≤ (line.after before).parameters.length :=
    position_le_after before (h ▸ Nat.zero_le _)
  refine ⟨action_after before line, hparameters, hparameters ▸ hle,
    hparameters ▸ position_add_unread hle, isFullyRead_iff_unread_eq_zero hle, ?_, ?_⟩
  · rw [position_after, h, Nat.zero_add]
  · rw [after_append, position_after later]
    exact Nat.le_add_right _ _

theorem answersInOrder_of_position_eq_zero {line : ActionLine} (h : line.position = 0)
    (before : List Request) (request : Request) :
    AnswersInOrder line before request (line.after before)
      ((line.after before).answer request).1 := by
  have hstep := readStep_answer request (line.after before)
  have hparameters := parameters_after before line
  have hle : (line.after before).position ≤ (line.after before).parameters.length :=
    position_le_after before (h ▸ Nat.zero_le _)
  have hposition := position_after before line
  rw [h, Nat.zero_add] at hposition
  constructor
  · rw [answersTo_append, answersTo_cons, answersTo_nil]
  · intro hvalue
    rw [← hposition, ← hparameters]
    exact hstep.value_eq hvalue
  · intro hvalue
    have hsame := hstep.line_eq hvalue
    rw [after_append, after_cons, after_nil, answersTo_append, answersTo_cons, answersTo_cons, hsame,
      answersTo_nil]
    exact ⟨rfl, rfl⟩
  · rw [← hparameters]
    exact hstep.eq_missing_iff hle
  · exact hstep.ne_error
  · rw [← hparameters]
    exact hstep.eq_absent_iff hle

/-- **Every run reads the parameters in order.**  However a parsed line is read, its action and
parameters stay; the place reached counts the calls that handed something out, which are the
parameters one after the other; and any other call changes nothing, so it can be repeated. -/
theorem run_inOrder {text : String} {line : ActionLine} (h : parse text = .ok line)
    (before later : List Request) (request : Request) :
    InOrder line before later ∧
      AnswersInOrder line before request (line.after before)
        ((line.after before).answer request).1 := by
  have hfresh := position_of_parse h
  exact ⟨inOrder_of_position_eq_zero hfresh before later,
    answersInOrder_of_position_eq_zero hfresh before request⟩

/-- The law at a line whose second parameter is no ordinal: that read fails where it stands. -/
theorem run_inOrder_of_failed_ordinal :
    let line : ActionLine := ⟨"shake", ["3", "-0", "x"], 0⟩
    let before : List Request := [⟨.integer, "times"⟩, ⟨.ordinal, "index"⟩]
    let later : List Request := [⟨.text, "mode"⟩, ⟨.optionalText, "label"⟩, ⟨.number, "speed"⟩]
    let request : Request := ⟨.ordinal, "index"⟩
    parse "<shake:3,-0,x>" = .ok line ∧ InOrder line before later ∧
      AnswersInOrder line before request (line.after before)
        ((line.after before).answer request).1 :=
  have h : parse "<shake:3,-0,x>" = .ok ⟨"shake", ["3", "-0", "x"], 0⟩ := by decide +kernel
  ⟨h, run_inOrder h _ _ _⟩

end ActionLine

end DialogueScript
