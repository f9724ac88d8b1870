/-
# Runs of the reader

A configuration is read one character at a time, and a text that was read leads from one state to
another.  It may do so whatever follows (`Leads`); but a numeral has no closing mark, and leads
there only if the next character ends it (`Reads`).  The reader stands somewhere else then, and
takes that character as it would have behind a value with a closing mark.

Two things are read alike wherever they stand, and what the reader must do at a place is all that
has to be known of it.  A string is read through the states of a scan up to its closing mark
(`QuotedReading`).  The members of a list are read one after the other, whatever they are:
`ListReading` says what happens at the marks and with one member, and `ListReading.reads` what
happens with a list.
-/
import DialogueScript.Configuration.Text
import DialogueScript.Proofs.Json.Scanning

namespace DialogueScript

namespace ConfigurationScan

variable {scan scan' scan'' : ConfigurationScan} {text text' rest : List Char} {c : Char}

/-! ### Runs -/

theorem run_cons (h : scan.step c = .ok scan') (rest : List Char) :
    run (c :: rest) scan = run rest scan' := by
  rw [run, h]

/-- A text leads from one state to another, whatever follows it. -/
def Leads (scan : ConfigurationScan) (text : List Char) (scan' : ConfigurationScan) : Prop :=
  ∀ rest, run (text ++ rest) scan = run rest scan'

theorem Leads.append (h : scan.Leads text scan') (h' : scan'.Leads text' scan'') :
    scan.Leads (text ++ text') scan'' := by
  intro rest
  rw [List.append_assoc, h, h']

theorem leads_single (h : scan.step c = .ok scan') : scan.Leads [c] scan' :=
  run_cons h

theorem Leads.cons (h : scan.step c = .ok scan') (h' : scan'.Leads text scan'') :
    scan.Leads (c :: text) scan'' :=
  (leads_single h).append h'

/-- White space changes nothing. -/
def PassesBlanks (scan : ConfigurationScan) : Prop :=
  ∀ c, isJsonBlank c = true → scan.step c = .ok scan

theorem PassesBlanks.leads {blanks : List Char} (h : scan.PassesBlanks)
    (hblanks : AreBlanks blanks) : scan.Leads blanks scan := by
  induction blanks with
  | nil => exact fun _ => rfl
  | cons blank blanks ih =>
    obtain ⟨hblank, hblanks⟩ := List.forall_mem_cons.mp hblanks
    exact .cons (h blank hblank) (ih hblanks)

/-- The places where white space may stand, outside of skipped values. -/
def allowsBlanks : ConfigurationScan → Bool
  | opening | closed _ | beforeKey .. | beforeColon .. | beforeElement .. | beforeValue ..
  | afterValue _ | beforeItem .. | afterItem .. => true
  | _ => false

theorem passesBlanks (h : scan.allowsBlanks = true) : scan.PassesBlanks := by
  intro c hc
  cases scan with
  | key | skipping | text | flag | item | mistyped => cases h
  | opening | closed | beforeKey | beforeColon | beforeElement | beforeValue | beforeItem
  | afterItem => simp only [step, hc, if_true]
  | afterValue slot => simp only [step, stepAfterValue, hc, if_true]

/-- A machine within the reader leads it through its own states. -/
theorem leads_of_trace {State : Type} {Step : State → Char → State → Prop} {s s' : State}
    (embed : State → ConfigurationScan)
    (hembed : ∀ s c s', Step s c s' → (embed s).step c = .ok (embed s'))
    (h : Trace Step s text s') : (embed s).Leads text (embed s') := by
  induction h with
  | nil => exact fun _ => rfl
  | cons hstep _ ih => exact .cons (hembed _ _ _ hstep) ih

/-! ### Strings -/

/-- What a character of a string leads to in a machine that contains the reading of the string. -/
def within (embed : QuotedScan → ConfigurationScan)
    (done : String → Except JsonFault ConfigurationScan) :
    Except JsonFault QuotedNext → Except JsonFault ConfigurationScan
  | .ok (.more quoted) => .ok (embed quoted)
  | .ok (.closed s) => done s
  | .error fault => .error fault

/-- The states in which a string is read, and what its closing mark leads to. -/
structure QuotedReading (rule : SurrogateRule) (scan : ConfigurationScan)
    (embed : QuotedScan → ConfigurationScan)
    (done : String → Except JsonFault ConfigurationScan) : Prop where
  opens : scan.step '"' = .ok (embed .start)
  step_eq : ∀ quoted c, (embed quoted).step c = within embed done (quoted.step rule c)

namespace QuotedReading

variable {rule : SurrogateRule} {embed : QuotedScan → ConfigurationScan}
  {done : String → Except JsonFault ConfigurationScan}

/-- A string is read up to its closing quotation mark, if its inside is. -/
theorem run_closed (h : QuotedReading rule scan embed done) {inside read : List Char}
    (htrace : Trace (QuotedScan.GoesOn rule) .start inside ⟨read, .plain⟩) (rest : List Char) :
    run ('"' :: (inside ++ ['"']) ++ rest) scan
      = (done (String.ofList read.reverse)).bind (run rest) := by
  have hinside : (embed .start).Leads inside (embed ⟨read, .plain⟩) := by
    refine leads_of_trace embed (fun quoted c quoted' hstep => ?_) htrace
    rw [h.step_eq, hstep, within]
  have hclose : (embed ⟨read, .plain⟩).step '"' = done (String.ofList read.reverse) := by
    rw [h.step_eq, QuotedScan.step_quote, within]
  rw [List.cons_append, run_cons h.opens, List.append_assoc, hinside, List.singleton_append,
    run, hclose]
  cases done (String.ofList read.reverse) with
  | error => rfl
  | ok => rfl

/-- A string is read as what it says. -/
theorem run_quoted (h : QuotedReading .paired scan embed done) {s : String}
    (hquoted : QuotedText s text) (rest : List Char) :
    run (text ++ rest) scan = (done s).bind (run rest) := by
  obtain ⟨hstring⟩ := hquoted
  rw [h.run_closed (hstring.trace []), List.append_nil, List.reverse_reverse, String.ofList_toList]

theorem leads (h : QuotedReading .paired scan embed done) {s : String}
    (hquoted : QuotedText s text) (hdone : done s = .ok scan') : scan.Leads text scan' := by
  intro rest
  rw [h.run_quoted hquoted, hdone]
  rfl

/-- A string that is passed over is read, whatever it says. -/
theorem leads_loose (h : QuotedReading .any scan embed done) (hquoted : LooseQuotedText text)
    (hdone : ∀ s, done s = .ok scan') : scan.Leads text scan' := by
  intro rest
  obtain ⟨hstring⟩ := hquoted
  obtain ⟨read, htrace⟩ := hstring.trace []
  rw [h.run_closed htrace, hdone]
  rfl

end QuotedReading

/-! ### Values and what follows them -/

/-- What can stand behind a value: white space, a comma or a closing bracket. -/
def EndsValue (c : Char) : Prop :=
  isJsonBlank c = true ∨ c = ',' ∨ c = ']' ∨ c = '\x7d'

theorem EndsValue.endsNumeral (h : EndsValue c) : EndsNumeral c := by
  rcases h with hblank | rfl | rfl | rfl
  · refine ⟨isDigit_of_isJsonBlank hblank, ?_, ?_, ?_⟩
    all_goals
      rintro rfl
      cases hblank
  all_goals exact ⟨rfl, by decide, by decide, by decide⟩

/-- A text leads from one state to another if a value can end behind it. -/
def Reads (scan : ConfigurationScan) (text : List Char) (scan' : ConfigurationScan) : Prop :=
  ∀ c rest, EndsValue c → run (text ++ c :: rest) scan = run (c :: rest) scan'

theorem Leads.reads (h : scan.Leads text scan') : scan.Reads text scan' :=
  fun _ _ _ => h _

theorem Leads.append_reads (h : scan.Leads text scan') (h' : scan'.Reads text' scan'') :
    scan.Reads (text ++ text') scan'' := by
  intro c rest hc
  rw [List.append_assoc, h, h' c rest hc]

theorem Reads.cons (h : scan.step c = .ok scan') (h' : scan'.Reads text scan'') :
    scan.Reads (c :: text) scan'' :=
  (leads_single h).append_reads h'

/-- White space behind a value ends it. -/
theorem Reads.append_blanks {blanks : List Char} (h : scan.Reads text scan')
    (hpasses : scan'.PassesBlanks) (hblanks : AreBlanks blanks) :
    scan.Reads (text ++ blanks) scan' := by
  intro c rest hc
  rcases blanks with - | ⟨blank, blanks⟩
  · rw [List.append_nil, h c rest hc]
  · have hblank := hblanks blank List.mem_cons_self
    rw [List.append_assoc, List.cons_append, h blank _ (.inl hblank), ← List.cons_append,
      hpasses.leads hblanks]

/-- A mark behind a value, and what it leads to. -/
theorem Reads.append_single (h : scan.Reads text scan') (hc : EndsValue c)
    (hstep : scan'.step c = .ok scan'') : scan.Leads (text ++ [c]) scan'' := by
  intro rest
  rw [List.append_assoc, List.singleton_append, h c rest hc, run_cons hstep]

/-- A colon with white space around it, and the value behind it. -/
theorem reads_colon {after before value : List Char} (hpasses : scan.PassesBlanks)
    (hcolon : scan.step ':' = .ok scan') (hpasses' : scan'.PassesBlanks) (hafter : AreBlanks after)
    (hbefore : AreBlanks before) (hvalue : scan'.Reads value scan'') :
    scan.Reads (after ++ ':' :: (before ++ value)) scan'' :=
  (hpasses.leads hafter).append_reads
    (.cons hcolon ((hpasses'.leads hbefore).append_reads hvalue))

/-! ### Lists -/

/-- A machine that reads a list, here a part of `total`, with `before` and behind each member. -/
structure ListReading {α : Type} (P : α → List Char → Prop) (total : List α)
    (before : List α → Bool → ConfigurationScan) (behind : List α → ConfigurationScan) : Prop where
  /-- White space may stand before a member, behind the ones that are done. -/
  passesBefore : ∀ done afterComma, (before done afterComma).PassesBlanks
  passesBehind : ∀ done, (behind done).PassesBlanks
  /-- Between two members stands a comma. -/
  comma : ∀ done next later, total = done ++ next :: later → done ≠ [] →
    (behind done).step ',' = .ok (before done true)
  /-- A member is read, and is then done. -/
  member : ∀ done next later afterComma text, total = done ++ next :: later → P next text →
    (before done afterComma).Reads text (behind (done ++ [next]))

namespace ListReading

variable {α : Type} {P : α → List Char → Prop} {total : List α}
  {before : List α → Bool → ConfigurationScan} {behind : List α → ConfigurationScan}

/-- **The members of a list are read**, if there are any, from behind those that are done. -/
theorem reads (h : ListReading P total before behind) {done next : List α} {text : List Char}
    (hnext : Separated P next text) (htotal : total = done ++ next) (hne : next ≠ [])
    (afterComma : Bool) : (before done afterComma).Reads text (behind total) := by
  -- along the list: what is done grows by the member that is read
  induction hnext generalizing done afterComma with
  | nil => exact absurd rfl hne
  | single hblanks hmember hblanks' =>
    have hread := h.member done _ _ afterComma _ htotal hmember
    rw [← htotal] at hread
    exact ((h.passesBefore done afterComma).leads hblanks).append_reads
      (hread.append_blanks (h.passesBehind total) hblanks')
  | @cons x y xs _ _ _ _ hblanks hmember hblanks' _ ih =>
    have hread := h.member done _ _ afterComma _ htotal hmember
    have hmore : total = (done ++ [x]) ++ y :: xs := by
      rw [htotal, List.append_assoc, List.singleton_append]
    have hcomma := h.comma (done ++ [x]) y xs hmore (by simp)
    have hfirst := (hread.append_blanks (h.passesBehind _) hblanks').append_single
      (.inr (.inl rfl)) hcomma
    rw [List.append_assoc] at hfirst
    have hrest := hfirst.append_reads (ih hmore (List.cons_ne_nil y xs) true)
    simp only [List.append_assoc, List.singleton_append] at hrest
    exact ((h.passesBefore done afterComma).leads hblanks).append_reads hrest

/-- A list with its closing bracket is read, also where it has no member. -/
theorem leads_closed (h : ListReading P total before behind) {text : List Char}
    (htext : Separated P total text) (hc : EndsValue c)
    (hempty : total = [] → (before [] false).step c = .ok scan')
    (hclose : total ≠ [] → (behind total).step c = .ok scan') :
    (before [] false).Leads (text ++ [c]) scan' := by
  by_cases hnil : total = []
  · subst hnil
    cases htext with
    | nil hblanks =>
      exact ((h.passesBefore [] false).leads hblanks).append (leads_single (hempty rfl))
  · exact (h.reads htext (List.nil_append total).symm hnil false).append_single hc (hclose hnil)

end ListReading

end ConfigurationScan

end DialogueScript
