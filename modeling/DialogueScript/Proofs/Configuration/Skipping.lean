/-
# Values that are passed over

A configuration may have members that nobody asked for, and their values are skipped.  Every JSON
value is skipped from its first character to its last, however deeply it is nested
(`ValueText.isSkipped`): the reader is then behind a member of the innermost bracket that is still
open, or behind the member of the configuration if there is none (`settled`).

The induction is over what a value contains, for all stacks of open brackets at once: a bracket that
is opened stands on the stack of its members, and closing it settles the stack below.
-/
import DialogueScript.Proofs.Configuration.Runs

namespace DialogueScript

namespace ConfigurationScan

variable {scan scan' : ConfigurationScan} {text : List Char} {c : Char} {draft : Draft}
  {skip skip' : Skip} {stack : List Bracket}

/-! ### Stepping over values -/

/-- Behind a value within the brackets of a stack. -/
def settled (draft : Draft) : List Bracket → ConfigurationScan
  | [] => .afterValue ⟨.member, draft⟩
  | stack => .skipping draft ⟨stack, .afterValue⟩

theorem step_skipping_of_more (h : skip.step c = .ok (.more skip')) :
    (skipping draft skip).step c = .ok (.skipping draft skip') := by
  rw [step, h]

/-- A closing mark ends a value. -/
theorem step_skipping_of_complete (h : skip.step c = .ok (Skip.complete stack)) :
    (skipping draft skip).step c = .ok (settled draft stack) := by
  rw [step, h]
  cases stack with
  | nil => rfl
  | cons => rfl

/-- A numeral that may end is ended by what can follow a value. -/
theorem run_numeral {phase : NumeralPhase} (hcomplete : phase.isComplete = true)
    (hc : EndsValue c) (rest : List Char) :
    run (c :: rest) (.skipping draft ⟨stack, .numeral phase⟩)
      = run (c :: rest) (settled draft stack) := by
  have hended := NumeralPhase.step_eq_ended hcomplete hc.endsNumeral
  cases stack with
  | nil => simp only [run, step, Skip.step, hended, settled]
  | cons => simp only [run, step, Skip.step, hended, settled]

/-- A value begins with something that is neither white space nor the end of an array. -/
def BeginsValue (text : List Char) : Prop :=
  ∃ c tail, text = c :: tail ∧ isJsonBlank c = false ∧ c ≠ ']'

/-- A text that is skipped, in any brackets. -/
structure IsSkipped (text : List Char) : Prop where
  begins : BeginsValue text
  reads : ∀ draft stack, (skipping draft ⟨stack, .beforeValue⟩).Reads text (settled draft stack)

theorem passesBlanks_settled (draft : Draft) (stack : List Bracket) :
    (settled draft stack).PassesBlanks := by
  intro c hc
  cases stack with
  | nil => simp [settled, step, stepAfterValue, hc]
  | cons => simp [settled, step, Skip.step, Skip.stepAfterValue, hc]

/-- The first character of a value says how it goes on. -/
theorem step_beforeValue (hblank : isJsonBlank c = false)
    (h : Skip.beginValue stack c = .ok (.more skip)) :
    (skipping draft ⟨stack, .beforeValue⟩).step c = .ok (.skipping draft skip) := by
  apply step_skipping_of_more
  rw [Skip.step, hblank]
  exact h

/-! #### Literals and numerals -/

theorem leads_word {letters : List Char} (hne : letters ≠ []) :
    (skipping draft ⟨stack, .word letters⟩).Leads letters (settled draft stack) := by
  induction letters with
  | nil => exact absurd rfl hne
  | cons letter missing ih =>
    by_cases hlast : missing = []
    · subst hlast
      exact leads_single (step_skipping_of_complete (by simp [Skip.step]))
    · refine .cons (step_skipping_of_more ?_) (ih hlast)
      simp [Skip.step, Skip.enter, hlast]

theorem isSkipped_literal {letters : List Char} (hbegins : isJsonBlank c = false ∧ c ≠ ']')
    (hbegin : ∀ stack, Skip.beginValue stack c = .ok (.more ⟨stack, .word letters⟩))
    (hne : letters ≠ []) : IsSkipped (c :: letters) :=
  ⟨⟨c, letters, rfl, hbegins⟩, fun _ stack =>
    (Leads.cons (step_beforeValue hbegins.1 (hbegin stack)) (leads_word hne)).reads⟩

theorem beginValue_numeral {phase : NumeralPhase} (h : NumeralPhase.first? c = some phase) :
    Skip.beginValue stack c = .ok (.more ⟨stack, .numeral phase⟩) := by
  unfold Skip.beginValue
  split
  all_goals first
    | cases h
    | rw [h]

theorem step_skipping_numeral {phase phase' : NumeralPhase}
    (h : NumeralPhase.GoesOn phase c phase') :
    (skipping draft ⟨stack, .numeral phase⟩).step c
      = .ok (.skipping draft ⟨stack, .numeral phase'⟩) := by
  apply step_skipping_of_more
  rw [NumeralPhase.GoesOn] at h
  simp only [Skip.step, h, Skip.enter]

theorem isSkipped_numeral (h : NumeralText text) : IsSkipped text := by
  obtain ⟨c, tail, phase, phase', rfl, hfirst, htrace, hcomplete⟩ := h.trace
  have hbegins : isJsonBlank c = false ∧ c ≠ ']' := by
    rcases NumeralPhase.eq_or_isDigit_of_first? hfirst with rfl | hdigit
    · decide
    · refine ⟨Bool.eq_false_iff.mpr fun hblank => ?_, ?_⟩
      · rw [isDigit_of_isJsonBlank hblank] at hdigit
        cases hdigit
      · rintro rfl
        cases hdigit
  refine ⟨⟨c, tail, rfl, hbegins⟩, fun draft stack => ?_⟩
  have hopen : (skipping draft ⟨stack, .beforeValue⟩).step c
      = .ok (.skipping draft ⟨stack, .numeral phase⟩) :=
    step_beforeValue hbegins.1 (beginValue_numeral hfirst)
  have hinside := leads_of_trace (fun phase => skipping draft ⟨stack, .numeral phase⟩)
    (fun _ _ _ => step_skipping_numeral) htrace
  -- the numeral is still open, which makes no difference to a character that ends it
  intro d rest hd
  rw [Reads.cons hopen hinside.reads d rest hd, run_numeral hcomplete hd]

/-! #### Strings -/

theorem quotedReading_skippedText (draft : Draft) (stack : List Bracket) :
    QuotedReading .any (skipping draft ⟨stack, .beforeValue⟩)
      (fun quoted => .skipping draft ⟨stack, .text quoted⟩)
      (fun _ => .ok (settled draft stack)) := by
  refine ⟨rfl, fun quoted c => ?_⟩
  rcases hstep : quoted.step .any c with fault | (quoted' | s)
  · simp only [step, Skip.step, hstep, within]
  · simp only [step, Skip.step, hstep, within, Skip.enter]
  · exact step_skipping_of_complete (by simp only [Skip.step, hstep])

theorem isSkipped_string (h : LooseQuotedText text) : IsSkipped text := by
  constructor
  · obtain ⟨-⟩ := h
    exact ⟨_, _, rfl, by decide⟩
  · exact fun draft stack =>
      ((quotedReading_skippedText draft stack).leads_loose h fun _ => rfl).reads

/-! #### Arrays and objects -/

/-- Before a member of a skipped array or object, within the brackets of a stack. -/
def beforeMember (draft : Draft) (stack : List Bracket) : Bracket → Bool → ConfigurationScan
  | .array, false => .skipping draft ⟨.array :: stack, .beforeFirstItem⟩
  | .array, true => .skipping draft ⟨.array :: stack, .beforeValue⟩
  | .object, afterComma => .skipping draft ⟨.object :: stack, .beforeKey afterComma⟩

theorem passesBlanks_beforeMember (bracket : Bracket) (afterComma : Bool) :
    (beforeMember draft stack bracket afterComma).PassesBlanks := by
  intro c hc
  cases bracket with
  | array => cases afterComma <;> exact step_skipping_of_more (by simp [Skip.step, hc])
  | object => exact step_skipping_of_more (by simp [Skip.step, hc])

/-- Skipped arrays and objects are lists: if their members are read, they are read to their end. -/
theorem leads_skippedList {P : List Char → Prop} {members : List Unit} {bracket : Bracket}
    (h : Separated (fun _ => P) members text)
    (hmember : ∀ afterComma text, P text →
      (beforeMember draft stack bracket afterComma).Reads text (settled draft (bracket :: stack)))
    (hc : EndsValue c)
    (hempty : (beforeMember draft stack bracket false).step c = .ok (settled draft stack))
    (hclose : (settled draft (bracket :: stack)).step c = .ok (settled draft stack)) :
    (beforeMember draft stack bracket false).Leads (text ++ [c]) (settled draft stack) := by
  have hlist : ListReading (fun _ => P) members (fun _ => beforeMember draft stack bracket)
      (fun _ => settled draft (bracket :: stack)) := by
    refine ⟨fun _ => passesBlanks_beforeMember bracket, fun _ => passesBlanks_settled draft _,
      fun _ _ _ _ _ => ?_, fun _ _ _ afterComma text _ => hmember afterComma text⟩
    cases bracket with
    | array => exact step_skipping_of_more rfl
    | object => exact step_skipping_of_more rfl
  exact hlist.leads_closed h hc (fun _ => hempty) fun _ => hclose

/-- At the first place of an array a value is read like anywhere else. -/
theorem IsSkipped.reads_item (h : IsSkipped text) (afterComma : Bool) :
    (beforeMember draft stack .array afterComma).Reads text (settled draft (.array :: stack)) := by
  cases afterComma with
  | true => exact h.reads draft _
  | false =>
    intro d rest hd
    rw [← h.reads draft _ d rest hd]
    obtain ⟨c, tail, rfl, hblank, hne⟩ := h.begins
    simp only [beforeMember, List.cons_append, run, step, Skip.step, hblank, hne,
      Bool.false_eq_true, if_false]

theorem isSkipped_array {items : List Unit} (h : Separated (fun _ => IsSkipped) items text) :
    IsSkipped ('[' :: (text ++ [']'])) := by
  refine ⟨⟨_, _, rfl, by decide⟩, fun draft stack => Leads.reads ?_⟩
  have hitems : (beforeMember draft stack .array false).Leads (text ++ [']'])
      (settled draft stack) :=
    leads_skippedList h (fun afterComma _ hitem => hitem.reads_item afterComma)
      (.inr (.inr (.inl rfl))) (step_skipping_of_complete rfl) (step_skipping_of_complete rfl)
  exact .cons rfl hitems

theorem quotedReading_skippedKey (draft : Draft) (stack : List Bracket) (afterComma : Bool) :
    QuotedReading .any (beforeMember draft stack .object afterComma)
      (fun quoted => .skipping draft ⟨.object :: stack, .key quoted⟩)
      (fun _ => .ok (.skipping draft ⟨.object :: stack, .beforeColon⟩)) := by
  refine ⟨rfl, fun quoted c => ?_⟩
  rcases hstep : quoted.step .any c with fault | (quoted' | s)
  all_goals simp only [step, Skip.step, hstep, within, Skip.enter]

/-- A member of a skipped object is read, whatever its key is. -/
theorem reads_skippedMember (h : KeyedText LooseQuotedText IsSkipped text) (afterComma : Bool) :
    (beforeMember draft stack .object afterComma).Reads text
      (settled draft (.object :: stack)) := by
  obtain ⟨hkey, hafter, hbefore, hvalue⟩ := h
  have hname := (quotedReading_skippedKey draft stack afterComma).leads_loose hkey fun _ => rfl
  refine hname.append_reads (reads_colon ?_ (step_skipping_of_more rfl) ?_ hafter hbefore
    (hvalue.reads draft _))
  · exact fun c hc => step_skipping_of_more (by simp [Skip.step, hc])
  · exact fun c hc => step_skipping_of_more (by simp [Skip.step, hc])

theorem isSkipped_object {members : List Unit}
    (h : Separated (fun _ => KeyedText LooseQuotedText IsSkipped) members text) :
    IsSkipped ('\x7b' :: (text ++ ['\x7d'])) := by
  refine ⟨⟨_, _, rfl, by decide⟩, fun draft stack => Leads.reads ?_⟩
  have hmembers : (beforeMember draft stack .object false).Leads (text ++ ['\x7d'])
      (settled draft stack) :=
    leads_skippedList h (fun afterComma _ hmember => reads_skippedMember hmember afterComma)
      (.inr (.inr (.inr rfl))) (step_skipping_of_complete rfl) (step_skipping_of_complete rfl)
  exact .cons rfl hmembers

end ConfigurationScan

open ConfigurationScan in
/-- **Every value is skipped**, from its first character to its last. -/
theorem ValueText.isSkipped {text : List Char} (h : ValueText text) : IsSkipped text :=
  h.induct (motive := IsSkipped)
    (isSkipped_literal (by decide) (fun _ => rfl) (List.cons_ne_nil _ _))
    (isSkipped_literal (by decide) (fun _ => rfl) (List.cons_ne_nil _ _))
    (isSkipped_literal (by decide) (fun _ => rfl) (List.cons_ne_nil _ _))
    isSkipped_numeral isSkipped_string isSkipped_array isSkipped_object

end DialogueScript
