/-
# Failed reads leave no trace

A read that hands nothing out, because it fails or finds an optional parameter missing, leaves the
line as it was.  So what a run does is told by the reads that do hand something out (`handedOut`),
and by their kinds alone: the one with the index `i` hands out the parameter that many places behind
the first one unread, converted as its kind (`getElem?_handedOut`), and the line that is reached has
moved on by their number (`after_eq_of_length_eq`).

Labels stand in errors and nowhere else: the answers to the same reads under other labels are the
same answers, with the labels exchanged (`run_relabel`).
-/
import DialogueScript.Proofs.ActionLine.TypedValues

namespace DialogueScript

/-! ### Labels -/

/-- The error, under another label. -/
def LineError.relabel (name : String) : LineError → LineError
  | badSyntax line => badSyntax line
  | missingParameter _ => missingParameter name
  | wrongType description _ token => wrongType description name token

/-- The answer, under another label: a value is as it was. -/
def Answer.relabel (name : String) (reply : Answer) : Answer :=
  reply.mapError (LineError.relabel name)

namespace ActionLine

variable {line : ActionLine} {name name' : String}

/-! #### One read under two labels -/

theorem convertInteger_relabel (name name' token : String) :
    convertInteger name' token = (convertInteger name token).mapError (.relabel name') := by
  rw [convertInteger, convertInteger]
  cases int32? token.toList with
  | none | some => rfl

theorem convertOrdinal_relabel (name name' token : String) :
    convertOrdinal name' token = (convertOrdinal name token).mapError (.relabel name') := by
  rw [convertOrdinal, convertOrdinal, convertInteger_relabel name name']
  rcases convertInteger name token with e | value
  · rfl
  · show (if 0 < value.toInt then _ else _) = Except.mapError _ (if 0 < value.toInt then _ else _)
    split
    · rfl
    · rfl

theorem convertNumber_relabel (name name' token : String) :
    convertNumber name' token = (convertNumber name token).mapError (.relabel name') := by
  rw [convertNumber, convertNumber]
  cases Single.ofText? token.toList with
  | none | some => rfl

/-- A reader that takes the next parameter and converts it, under another label. -/
theorem run_map_take_relabel {α : Type} {convert convert' : String → Except LineError α}
    (wrap : α → ReadValue)
    (h : ∀ token, convert' token = (convert token).mapError (.relabel name')) (line : ActionLine) :
    (wrap <$> take convert' name').run line
      = (Answer.relabel name' ((wrap <$> take convert name).run line).1,
          ((wrap <$> take convert name).run line).2) := by
  rw [run_map, run_map, run_take, run_take]
  cases line.next? with
  | none => rfl
  | some token =>
    simp only [h]
    cases convert token with
    | error | ok => rfl

/-- **A label stands in the error and nowhere else.** -/
theorem answer_relabel (kind : ReadKind) (name name' : String) (line : ActionLine) :
    line.answer ⟨kind, name'⟩
      = ((line.answer ⟨kind, name⟩).1.relabel name', (line.answer ⟨kind, name⟩).2) := by
  cases kind with
  | text =>
    have hconvert : ∀ token : String, (.ok token : Except LineError String)
        = (Except.ok token).mapError (.relabel name') := fun token => rfl
    exact run_map_take_relabel .text hconvert line
  | optionalText =>
    simp only [answer, reader, run_map, run_takeOptionalText, takeText, run_take]
    cases line.next? with
    | none | some => rfl
  | integer => exact run_map_take_relabel .integer (convertInteger_relabel name name') line
  | ordinal => exact run_map_take_relabel .integer (convertOrdinal_relabel name name') line
  | number => exact run_map_take_relabel .number (convertNumber_relabel name name') line
  | asset =>
    have hconvert : ∀ token, (.ok (AssetName.ofRaw token) : Except LineError AssetName)
        = (Except.ok (AssetName.ofRaw token)).mapError (.relabel name') := fun token => rfl
    exact run_map_take_relabel .asset hconvert line

/-- **Other labels do not change a run**, except in its errors. -/
theorem run_relabel {requests requests' : List Request}
    (h : requests.map Request.kind = requests'.map Request.kind) (line : ActionLine) :
    line.answersTo requests'
        = List.zipWith (fun request reply => reply.relabel request.name) requests'
            (line.answersTo requests) ∧
      line.after requests' = line.after requests := by
  induction requests generalizing requests' line with
  | nil =>
    obtain rfl := List.map_eq_nil_iff.mp h.symm
    exact ⟨rfl, rfl⟩
  | cons request requests ih =>
    obtain ⟨request', requests', rfl, hkind, hkinds⟩ := List.map_eq_cons_iff.mp h.symm
    obtain ⟨kind, name⟩ := request
    obtain ⟨kind', name'⟩ := request'
    obtain rfl : kind' = kind := hkind
    have hstep := answer_relabel kind' name name' line
    obtain ⟨hanswers, hafter⟩ := ih hkinds.symm (line.answer ⟨kind', name⟩).2
    simp only [answersTo_cons, after_cons, List.zipWith_cons_cons, hstep]
    exact ⟨congrArg _ hanswers, hafter⟩

/-! ### What is handed out -/

/-- The reads of a run that hand out a parameter, each with its answer. -/
def handedOut (requests : List Request) (line : ActionLine) : List (Request × Answer) :=
  (requests.zip (line.answersTo requests)).filter fun call => call.2.isValue

theorem handedOut_cons_of_isValue {request : Request}
    (h : (line.answer request).1.isValue = true) (requests : List Request) :
    line.handedOut (request :: requests)
      = (request, (line.answer request).1) :: (line.answer request).2.handedOut requests := by
  rw [handedOut, answersTo_cons, List.zip_cons_cons, List.filter_cons, if_pos h, handedOut]

/-- A read that hands nothing out is left out, and the others are as they were without it. -/
theorem handedOut_cons_of_not_isValue {request : Request}
    (h : (line.answer request).1.isValue = false) (requests : List Request) :
    line.handedOut (request :: requests) = line.handedOut requests ∧
      line.after (request :: requests) = line.after requests := by
  have hline := (readStep_answer request line).line_eq h
  rw [handedOut, answersTo_cons, after_cons, hline, List.zip_cons_cons, List.filter_cons,
    if_neg (by simp [h])]
  exact ⟨rfl, rfl⟩

/-- **What is handed out** is one parameter after the other from the first one unread, each
converted as the kind asked for. -/
theorem getElem?_handedOut {requests : List Request} {line : ActionLine} {i : Nat}
    {call : Request × Answer} (h : (line.handedOut requests)[i]? = some call) :
    ∃ token value, line.parameters[line.position + i]? = some token ∧
      call.1.kind.value? token = some value ∧ call.2 = .ok value := by
  induction requests generalizing line i with
  | nil => simp [handedOut] at h
  | cons request requests ih =>
    have hstep := readStep_answer request line
    cases hvalue : (line.answer request).1.isValue with
    | false =>
      rw [(handedOut_cons_of_not_isValue hvalue requests).1] at h
      exact ih h
    | true =>
      rw [handedOut_cons_of_isValue hvalue] at h
      cases i with
      | zero =>
        obtain rfl := Option.some.inj h
        exact hstep.value_eq hvalue
      | succ i =>
        -- behind this read the place is one further on
        have hposition := hstep.position_eq
        rw [if_pos hvalue] at hposition
        have hlater := ih h
        rwa [hstep.parameters_eq, hposition, Nat.add_assoc, Nat.add_comm 1] at hlater

theorem length_handedOut (requests : List Request) (line : ActionLine) :
    (line.handedOut requests).length = (line.answersTo requests).countP Answer.isValue := by
  induction requests generalizing line with
  | nil => rfl
  | cons request requests ih =>
    cases hvalue : (line.answer request).1.isValue with
    | false =>
      have hline := (readStep_answer request line).line_eq hvalue
      rw [(handedOut_cons_of_not_isValue hvalue requests).1, answersTo_cons,
        List.countP_cons_of_neg (by simp [hvalue]), hline, ih]
    | true =>
      rw [handedOut_cons_of_isValue hvalue, answersTo_cons, List.countP_cons_of_pos hvalue,
        List.length_cons, ih]

/-- **The line that is reached** depends on the number of parameters handed out. -/
theorem after_eq_of_length_eq {first second : List Request} {line : ActionLine}
    (h : (line.handedOut first).length = (line.handedOut second).length) :
    line.after first = line.after second := by
  rw [length_handedOut, length_handedOut] at h
  apply ActionLine.ext
  · rw [action_after, action_after]
  · rw [parameters_after, parameters_after]
  · rw [position_after, position_after, h]

/-- **Without the reads that hand nothing out** a run hands out the same and ends the same. -/
theorem run_handedOut (requests : List Request) (line : ActionLine) :
    line.run ((line.handedOut requests).map Prod.fst)
      = ((line.handedOut requests).map Prod.snd, line.after requests) := by
  show (line.answersTo _, line.after _) = _
  induction requests generalizing line with
  | nil => rfl
  | cons request requests ih =>
    cases hvalue : (line.answer request).1.isValue with
    | false =>
      obtain ⟨hhanded, hafter⟩ := handedOut_cons_of_not_isValue hvalue requests
      rw [hhanded, hafter]
      exact ih line
    | true =>
      obtain ⟨hanswers, hafter⟩ := Prod.mk.inj (ih (line.answer request).2)
      rw [handedOut_cons_of_isValue hvalue, List.map_cons, List.map_cons, answersTo_cons,
        after_cons, after_cons, hanswers, hafter]

/-! ### Two runs -/

/-- Two runs hand out the same where they ask for the same kind. -/
theorem answer_eq_of_kind_eq {first second : List Request} {line : ActionLine} {i : Nat}
    {call call' : Request × Answer} (h : (line.handedOut first)[i]? = some call)
    (h' : (line.handedOut second)[i]? = some call') (hkind : call.1.kind = call'.1.kind) :
    call.2 = call'.2 := by
  obtain ⟨token, value, htoken, hvalue, hanswer⟩ := getElem?_handedOut h
  obtain ⟨token', value', htoken', hvalue', hanswer'⟩ := getElem?_handedOut h'
  obtain rfl := Option.some.inj (htoken.symm.trans htoken')
  rw [hkind] at hvalue
  obtain rfl := Option.some.inj (hvalue.symm.trans hvalue')
  rw [hanswer, hanswer']

theorem answers_eq_of_kinds_eq {first second : List Request} {line : ActionLine}
    (h : (line.handedOut first).map (·.1.kind) = (line.handedOut second).map (·.1.kind)) :
    (line.handedOut first).map (·.2) = (line.handedOut second).map (·.2) := by
  apply List.ext_getElem?
  intro i
  have hkind := congrArg (·[i]?) h
  simp only [List.getElem?_map] at hkind ⊢
  cases hcall : (line.handedOut first)[i]? with
  | none =>
    rw [hcall] at hkind
    rw [Option.map_eq_none_iff.mp hkind.symm]
  | some call =>
    rw [hcall] at hkind
    obtain ⟨call', hcall', hsame⟩ := Option.map_eq_some_iff.mp hkind.symm
    rw [hcall', Option.map_some, Option.map_some, answer_eq_of_kind_eq hcall hcall' hsame.symm]

/-- A parameter that could not be read as some kind can be read as a text. -/
theorem answersTo_retry {request retry : Request} {line : ActionLine} {e : LineError}
    {token : String} (htoken : line.parameters[line.position]? = some token)
    (herror : (line.answer request).1 = .error e)
    (hretry : retry.kind = .text ∨ retry.kind = .optionalText) :
    line.answersTo [request, retry] = [.error e, .ok (.text token)] := by
  have hline : (line.answer request).2 = line := by
    apply (readStep_answer request line).line_eq
    rw [herror]
    rfl
  have hvalue : retry.kind.value? token = some (.text token) := by
    rcases hretry with hkind | hkind
    · rw [hkind, ReadKind.value?]
    · rw [hkind, ReadKind.value?]
  simp only [answersTo_cons, answersTo_nil, herror, hline, answer_of_value? htoken hvalue]

/-- What does not depend on reads that hand nothing out, nor on labels. -/
structure IgnoresFailures (line : ActionLine) : Prop where
  /-- Two runs hand out the same, and end the same, if the reads that hand something out are of the
  same kinds in the same order; it does not matter what other reads there are. -/
  of_kinds_eq : ∀ first second : List Request,
    (line.handedOut first).map (·.1.kind) = (line.handedOut second).map (·.1.kind) →
    (line.handedOut first).map (·.2) = (line.handedOut second).map (·.2) ∧
      line.after first = line.after second
  /-- What is handed out agrees one by one, wherever the kinds do, -/
  of_kind_eq : ∀ (first second : List Request) (i : Nat) (call call' : Request × Answer),
    (line.handedOut first)[i]? = some call → (line.handedOut second)[i]? = some call' →
    call.1.kind = call'.1.kind → call.2 = call'.2
  /-- and the line that is reached depends on the number of parameters handed out. -/
  of_length_eq : ∀ first second : List Request,
    (line.handedOut first).length = (line.handedOut second).length →
    line.after first = line.after second
  /-- The reads that hand nothing out can be left out of a run. -/
  without_failures : ∀ requests : List Request,
    line.run ((line.handedOut requests).map (·.1))
      = ((line.handedOut requests).map (·.2), line.after requests)
  /-- Other labels change nothing but the labels in errors. -/
  of_relabelled : ∀ requests requests' : List Request,
    requests.map Request.kind = requests'.map Request.kind →
    line.answersTo requests'
        = List.zipWith (fun request reply => reply.relabel request.name) requests'
          (line.answersTo requests) ∧
      line.after requests' = line.after requests
  /-- A parameter that could not be read as some kind is still there, and can be read as a text. -/
  retry : ∀ (request retry : Request) e token, line.parameters[line.position]? = some token →
    (line.answer request).1 = .error e → retry.kind = .text ∨ retry.kind = .optionalText →
    line.answersTo [request, retry] = [.error e, .ok (.text token)]

/-- **Failed reads and labels do not influence later reads**, however far a line has been read. -/
theorem reads_ignoreFailures (line : ActionLine) : IgnoresFailures line where
  of_kinds_eq first second h := by
    have hlength := congrArg List.length h
    rw [List.length_map, List.length_map] at hlength
    exact ⟨answers_eq_of_kinds_eq h, after_eq_of_length_eq hlength⟩
  of_kind_eq first second i call call' := answer_eq_of_kind_eq
  of_length_eq first second := after_eq_of_length_eq
  without_failures requests := run_handedOut requests line
  of_relabelled requests requests' h := run_relabel h line
  retry request retry e token := answersTo_retry

/-- The law at a line with a parameter that is no integer, which is read as a text in the end, with
and without failing reads, and under other labels. -/
theorem reads_ignoreFailures_of_fallback :
    let line : ActionLine := ⟨"show", ["x", "1.5x", "7"], 1⟩
    let first : List Request := [⟨.integer, "count"⟩, ⟨.number, "count"⟩, ⟨.text, "count"⟩,
      ⟨.ordinal, "slot"⟩, ⟨.text, "mode"⟩, ⟨.optionalText, "mode"⟩]
    let second : List Request := [⟨.text, "speed"⟩, ⟨.ordinal, ""⟩]
    (line.handedOut first).map (·.1.kind) = (line.handedOut second).map (·.1.kind) ∧
      line.parameters[line.position]? = some "1.5x" ∧
      (line.answer ⟨.number, "count"⟩).1 = .error (.wrongType "decimal value" "count" "1.5x") ∧
      (line.handedOut first).map (·.2) = (line.handedOut second).map (·.2) ∧
      line.after first = line.after second ∧
      line.answersTo [⟨.number, "count"⟩, ⟨.text, "speed"⟩]
        = [.error (.wrongType "decimal value" "count" "1.5x"), .ok (.text "1.5x")] := by
  intro line first second
  have hkinds : (line.handedOut first).map (·.1.kind) = (line.handedOut second).map (·.1.kind) := by
    decide +kernel
  have htoken : line.parameters[line.position]? = some "1.5x" := rfl
  have herror : (line.answer ⟨.number, "count"⟩).1
      = .error (.wrongType "decimal value" "count" "1.5x") := by decide +kernel
  have hignores := reads_ignoreFailures line
  obtain ⟨hanswers, hafter⟩ := hignores.of_kinds_eq first second hkinds
  exact ⟨hkinds, htoken, herror, hanswers, hafter,
    hignores.retry ⟨.number, "count"⟩ ⟨.text, "speed"⟩ _ _ htoken herror (.inl rfl)⟩

end ActionLine

end DialogueScript
