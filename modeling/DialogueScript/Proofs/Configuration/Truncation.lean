/-
# Configurations that are cut off

A configuration file may be found half written.  It is refused then, wherever the cut is
(`Configuration.load_of_truncated`): the reader comes to a good end only behind the outermost
bracket, and what follows there is white space (`finish_of_cut`).

As what it is refused depends on where the reader stands at the cut.  A numeral that nobody asked
for can be malformed without its end, but an object of fields is read through states that wait for
the rest of it (`Waits`).  That the whole text is accepted says what may stand there, so the values
of fields can be any: `Passes` speaks of texts that are accepted, and has a rule for each part of an
object.  A string is followed through the states of the reader that lets single surrogates pass, and
the one that wants pairs stays alongside (`Alongside`), as long as it accepts.
-/
import DialogueScript.Proofs.Configuration.Spelling
import DialogueScript.Proofs.Configuration.Text

namespace DialogueScript

/-! ### Texts -/

/-- A member of an object: the key of a field, and any value. -/
def KnownMemberText (field : Field) : List Char → Prop :=
  KeyedText (QuotedText field.key) ValueText

/-- An object that has only members with the keys of the given fields, and white space around it.
Whether their values are those of fields is left open. -/
inductive KnownObjectText (fields : List Field) : List Char → Prop
  | intro {before body after} : AreBlanks before → Separated KnownMemberText fields body →
      AreBlanks after → KnownObjectText fields (before ++ '\x7b' :: (body ++ '\x7d' :: after))

/-! ### Cuts -/

namespace ConfigurationScan

variable {scan scan' : ConfigurationScan} {text text' rest : List Char} {c : Char}

theorem run_append (text rest : List Char) (scan : ConfigurationScan) :
    run (text ++ rest) scan = (run text scan).bind (run rest) := by
  induction text generalizing scan with
  | nil => rfl
  | cons c text ih =>
    rw [List.cons_append, run, run]
    cases scan.step c with
    | error => rfl
    | ok scan => exact ih scan

/-- Behind the outermost bracket there is only white space. -/
theorem areBlanks_of_accepts {draft : Draft} (h : (closed draft).Accepts text) :
    AreBlanks text := by
  induction text with
  | nil => exact areBlanks_nil
  | cons c text ih =>
    obtain ⟨scan, hstep, hrest⟩ := h.of_cons
    rw [step] at hstep
    split at hstep
    · next hblank =>
      obtain rfl := Except.ok.inj hstep
      exact List.forall_mem_cons.mpr ⟨hblank, ih hrest⟩
    · cases hstep

/-- Only there a reading comes to a good end. -/
theorem eq_closed_of_finish {config : Configuration} (h : scan.finish = .ok config) :
    ∃ draft, scan = .closed draft := by
  cases scan with
  | closed draft => exact ⟨draft, rfl⟩
  | opening | beforeKey | key | beforeColon | skipping | beforeElement | beforeValue | afterValue
  | text | flag | beforeItem | item | afterItem | mistyped => cases h

/-- **A text that is cut off comes to no good end**, if more than white space is missing. -/
theorem finish_of_cut {cut : List Char} (h : scan.Accepts (cut ++ rest))
    (hrest : ¬ AreBlanks rest) : ∃ fault, (run cut scan).bind finish = .error fault := by
  obtain ⟨config, hconfig⟩ := h
  rw [run_append] at hconfig
  cases hrun : run cut scan with
  | error fault => exact ⟨fault, rfl⟩
  | ok scan' =>
    rw [hrun] at hconfig
    cases hfinish : scan'.finish with
    | error fault => exact ⟨fault, hfinish⟩
    | ok =>
      obtain ⟨draft, rfl⟩ := eq_closed_of_finish hfinish
      exact absurd (areBlanks_of_accepts ⟨config, hconfig⟩) hrest

/-! ### Waiting for more -/

/-- The text may not end here; more of it must come. -/
def Waits (scan : ConfigurationScan) : Prop :=
  scan.finish = .error .incomplete

/-- A character is read where the text may not end. -/
def GoesOn (scan : ConfigurationScan) (c : Char) (scan' : ConfigurationScan) : Prop :=
  scan.Waits ∧ scan.step c = .ok scan'

theorem Accepts.of_trace (h : scan.Accepts (text ++ rest)) (htrace : Trace GoesOn scan text scan') :
    scan'.Accepts rest := by
  induction htrace with
  | nil => exact h
  | cons hstep _ ih =>
    obtain ⟨scan'', hstep', hrest⟩ := h.of_cons
    obtain rfl := Except.ok.inj (hstep.2.symm.trans hstep')
    exact ih hrest

/-- A text that is cut off within such a part is incomplete. -/
theorem finish_of_trace {cut : List Char} (h : Trace GoesOn scan (cut ++ c :: rest) scan') :
    (run cut scan).bind finish = .error .incomplete := by
  induction cut generalizing scan with
  | nil =>
    cases h with
    | cons hstep => exact hstep.1
  | cons d cut ih =>
    cases h with
    | cons hstep htrace =>
      rw [run_cons hstep.2]
      exact ih htrace

/-- A part of a text that is read, if the text is accepted, to one of some states, and within which
the text may not end. -/
def Passes (scan : ConfigurationScan) (text : List Char) (Behind : ConfigurationScan → Prop) :
    Prop :=
  ∀ rest, scan.Accepts (text ++ rest) → ∃ scan', Behind scan' ∧ Trace GoesOn scan text scan'

section Passes

variable {P Q : ConfigurationScan → Prop}

theorem Passes.append (h : scan.Passes text P) (h' : ∀ scan', P scan' → scan'.Passes text' Q) :
    scan.Passes (text ++ text') Q := by
  intro rest haccepts
  rw [List.append_assoc] at haccepts
  obtain ⟨scan', hscan', htrace⟩ := h _ haccepts
  obtain ⟨scan'', hscan'', htrace'⟩ := h' scan' hscan' _ (haccepts.of_trace htrace)
  exact ⟨scan'', hscan'', htrace.append htrace'⟩

theorem Passes.mono (h : scan.Passes text P) (hmono : ∀ scan', P scan' → Q scan') :
    scan.Passes text Q := by
  intro rest haccepts
  obtain ⟨scan', hscan', htrace⟩ := h rest haccepts
  exact ⟨scan', hmono scan' hscan', htrace⟩

theorem passes_of_trace (h : Trace GoesOn scan text scan') (hbehind : P scan') :
    scan.Passes text P :=
  fun _ _ => ⟨scan', hbehind, h⟩

/-- Only what is still accepted behind a character has to be followed. -/
theorem Passes.cons (hwaits : scan.Waits)
    (h : ∀ scan' rest, scan.step c = .ok scan' → scan'.Accepts rest → scan'.Passes text P) :
    scan.Passes (c :: text) P := by
  intro rest haccepts
  obtain ⟨scan', hstep, hrest⟩ := haccepts.of_cons
  obtain ⟨scan'', hscan'', htrace⟩ := h scan' _ hstep hrest rest hrest
  exact ⟨scan'', hscan'', .cons ⟨hwaits, hstep⟩ htrace⟩

theorem passes_single (hwaits : scan.Waits) (h : ∀ scan', scan.step c = .ok scan' → P scan') :
    scan.Passes [c] P :=
  .cons hwaits fun scan' _ hstep _ => passes_of_trace .nil (h scan' hstep)

/-- A place for white space at which the text may not end. -/
structure Pauses (scan : ConfigurationScan) : Prop where
  allowsBlanks : scan.allowsBlanks = true
  waits : scan.Waits

theorem Pauses.passes {blanks : List Char} (h : scan.Pauses) (hblanks : AreBlanks blanks) :
    scan.Passes blanks (· = scan) := by
  refine passes_of_trace (.of_forall fun c hc => ?_) rfl
  exact ⟨h.waits, passesBlanks h.allowsBlanks c (hblanks c hc)⟩

/-- White space before a part is passed with it. -/
theorem Pauses.passes_append {blanks : List Char} (h : scan.Pauses) (hblanks : AreBlanks blanks)
    (htext : scan.Passes text P) : scan.Passes (blanks ++ text) P :=
  (h.passes hblanks).append fun _ heq => heq ▸ htext

end Passes

/-! ### Lists -/

/-- The places before and behind the members of a list. -/
structure ListPassing {α : Type} (P : α → List Char → Prop)
    (Before : Bool → ConfigurationScan → Prop) (Behind : ConfigurationScan → Prop) : Prop where
  pausesBefore : ∀ {afterComma scan}, Before afterComma scan → scan.Pauses
  pausesBehind : ∀ {scan}, Behind scan → scan.Pauses
  comma : ∀ {scan scan'}, Behind scan → scan.step ',' = .ok scan' → Before true scan'
  member : ∀ {x text afterComma scan}, P x text → Before afterComma scan → scan.Passes text Behind

namespace ListPassing

variable {α : Type} {P : α → List Char → Prop} {Before : Bool → ConfigurationScan → Prop}
  {Behind Done : ConfigurationScan → Prop} {xs : List α} {afterComma : Bool}

/-- The members of a list are passed, up to behind the last one. -/
theorem passes (h : ListPassing P Before Behind) (htext : Separated P xs text)
    (hscan : Before afterComma scan) :
    scan.Passes text fun scan' => xs = [] ∧ scan' = scan ∨ Behind scan' := by
  induction htext generalizing scan afterComma with
  | nil hblanks => exact ((h.pausesBefore hscan).passes hblanks).mono fun _ heq => .inl ⟨rfl, heq⟩
  | single hblanks hmember hblanks' =>
    refine (h.pausesBefore hscan).passes_append hblanks ?_
    refine (h.member hmember hscan).append fun scan' hbehind => ?_
    exact ((h.pausesBehind hbehind).passes hblanks').mono fun _ heq => .inr (heq ▸ hbehind)
  | cons hblanks hmember hblanks' _ ih =>
    refine (h.pausesBefore hscan).passes_append hblanks ?_
    refine (h.member hmember hscan).append fun scan' hbehind => ?_
    refine (h.pausesBehind hbehind).passes_append hblanks' ?_
    refine .cons (h.pausesBehind hbehind).waits fun scan'' _ hcomma _ => ?_
    -- behind the comma there is a member, so the list does not end there
    exact (ih (h.comma hbehind hcomma)).mono fun _ hlast => .inr (hlast.resolve_left nofun)

/-- A list with its closing bracket is passed. -/
theorem passes_closed (h : ListPassing P Before Behind) (htext : Separated P xs text)
    (hscan : Before false scan)
    (hclose : ∀ {scan scan'}, Before false scan ∨ Behind scan → scan.step c = .ok scan' →
      Done scan') : scan.Passes (text ++ [c]) Done := by
  refine (h.passes htext hscan).append ?_
  rintro scan' (⟨-, rfl⟩ | hbehind)
  · exact passes_single (h.pausesBefore hscan).waits fun _ => hclose (.inl hscan)
  · exact passes_single (h.pausesBehind hbehind).waits fun _ => hclose (.inr hbehind)

end ListPassing

end ConfigurationScan

/-! ### Strings -/

namespace QuotedScan

/-- Where a string may stand that is read by two readers, of which the second wants surrogates to
come in pairs. -/
inductive Alongside : QuotedPhase → QuotedPhase → Prop
  | plain : Alongside .plain .plain
  | leadRead {lead} : Alongside .plain (.leadRead lead)
  | escaped : Alongside .escaped .escaped
  | leadEscaped {lead} : Alongside .escaped (.leadEscaped lead)
  | unicode {lead lead' bytes value} :
      Alongside (.unicode lead bytes value) (.unicode lead' bytes value)

/-- Both take the value of an escape, if the second does. -/
theorem alongside_takeUnit {loose scan : QuotedScan} {lead lead' : Option Nat} {unit : Nat}
    {next next' : QuotedNext} (hloose : loose.takeUnit .any lead unit = .ok next)
    (hscan : scan.takeUnit .paired lead' unit = .ok next') :
    ∃ loose' scan', next = .more loose' ∧ next' = .more scan' ∧
      Alongside loose'.phase scan'.phase := by
  obtain rfl := Except.ok.inj hloose
  cases lead' with
  | some lead' =>
    rw [takeUnit] at hscan
    split at hscan
    · obtain rfl := Except.ok.inj hscan
      exact ⟨_, _, rfl, rfl, .plain⟩
    · cases hscan
  | none =>
    rw [takeUnit] at hscan
    split at hscan
    · cases hscan
    · split at hscan
      · obtain rfl := Except.ok.inj hscan
        exact ⟨_, _, rfl, rfl, .leadRead⟩
      · obtain rfl := Except.ok.inj hscan
        exact ⟨_, _, rfl, rfl, .plain⟩

/-- Where one reader goes on, the other one goes on alongside, if it does not refuse. -/
theorem Alongside.step {loose loose' scan : QuotedScan} {c : Char} {next : QuotedNext}
    (h : Alongside loose.phase scan.phase) (hloose : GoesOn .any loose c loose')
    (hnext : scan.step .paired c = .ok next) :
    ∃ scan', next = .more scan' ∧ Alongside loose'.phase scan'.phase := by
  obtain ⟨read, phase⟩ := loose
  obtain ⟨read', phase'⟩ := scan
  cases h with
  | plain | leadRead | escaped | leadEscaped =>
    simp only [GoesOn, QuotedScan.step, enter, push] at hloose hnext
    grind [Alongside]
  | unicode =>
    -- both have seen the same bytes, and only the value of the last one is taken differently
    simp only [GoesOn, QuotedScan.step, enter] at hloose hnext
    split at hloose
    · next hbytes =>
      rw [if_pos hbytes] at hnext
      cases hloose
      cases hnext
      exact ⟨_, rfl, .unicode⟩
    · next hbytes =>
      rw [if_neg hbytes] at hnext
      split at hloose
      · next hvalue =>
        simp only [hvalue] at hnext
        obtain ⟨_, scan', hmore, rfl, hphase⟩ := alongside_takeUnit hloose hnext
        obtain rfl := QuotedNext.more.inj hmore
        exact ⟨scan', rfl, hphase⟩
      · cases hloose

end QuotedScan

namespace ConfigurationScan

variable {scan scan' : ConfigurationScan} {text rest : List Char} {c : Char}

namespace QuotedReading

variable {embed : QuotedScan → ConfigurationScan}
  {done : String → Except JsonFault ConfigurationScan} {quoted quoted' : QuotedScan}
  {P : ConfigurationScan → Prop}

/-- What is accepted within a string is read by its scan. -/
theorem step_of_accepts (h : QuotedReading .paired scan embed done)
    (haccepts : (embed quoted).Accepts (c :: rest)) :
    ∃ next scan', quoted.step .paired c = .ok next ∧ within embed done (.ok next) = .ok scan' ∧
      scan'.Accepts rest := by
  obtain ⟨scan', hstep, hrest⟩ := haccepts.of_cons
  rw [h.step_eq] at hstep
  cases hnext : quoted.step .paired c with
  | error fault =>
    rw [hnext] at hstep
    cases hstep
  | ok next => exact ⟨next, scan', rfl, hnext ▸ hstep, hrest⟩

/-- The inside of a string, whatever it says, is read alongside, if it is accepted. -/
theorem trace_alongside (h : QuotedReading .paired scan embed done) {loose loose' : QuotedScan}
    (htrace : Trace (QuotedScan.GoesOn .any) loose text loose')
    (halongside : QuotedScan.Alongside loose.phase quoted.phase)
    (haccepts : (embed quoted).Accepts (text ++ rest)) :
    ∃ quoted', Trace (QuotedScan.GoesOn .paired) quoted text quoted' ∧
      QuotedScan.Alongside loose'.phase quoted'.phase ∧ (embed quoted').Accepts rest := by
  induction htrace generalizing quoted with
  | nil => exact ⟨quoted, .nil, halongside, haccepts⟩
  | cons hloose _ ih =>
    obtain ⟨next, scan', hnext, hwithin, hrest⟩ := h.step_of_accepts haccepts
    obtain ⟨quoted', rfl, halongside'⟩ := halongside.step hloose hnext
    obtain rfl := Except.ok.inj hwithin
    obtain ⟨quoted'', htrace, hlast⟩ := ih halongside' hrest
    exact ⟨quoted'', .cons hnext htrace, hlast⟩

/-- Behind the inside of a string its closing mark is accepted only where no surrogate is alone. -/
theorem exists_trace_of_accepts (h : QuotedReading .paired scan embed done)
    (htext : LooseStringText text) (haccepts : (embed .start).Accepts (text ++ '"' :: rest)) :
    ∃ read, Trace (QuotedScan.GoesOn .paired) .start text ⟨read, .plain⟩ := by
  obtain ⟨read, hloose⟩ := htext.trace []
  obtain ⟨⟨read', phase⟩, htrace, halongside, hclosing⟩ :=
    h.trace_alongside hloose .plain haccepts
  cases halongside with
  | plain => exact ⟨read', htrace⟩
  | leadRead =>
    obtain ⟨next, -, hnext, -⟩ := h.step_of_accepts hclosing
    cases hnext

/-- **A string is passed**, if the text may not end in it. -/
theorem passes (h : QuotedReading .paired scan embed done) (hwaits : scan.Waits)
    (hembed : ∀ quoted, (embed quoted).Waits) {read : List Char}
    (htrace : Trace (QuotedScan.GoesOn .paired) .start text ⟨read, .plain⟩)
    (hdone : ∀ scan', done (String.ofList read.reverse) = .ok scan' → P scan') :
    scan.Passes ('"' :: (text ++ ['"'])) P := by
  have hinside : Trace GoesOn (embed .start) text (embed ⟨read, .plain⟩) :=
    htrace.map embed fun quoted c quoted' hstep => by
      exact ⟨hembed quoted, by rw [h.step_eq, hstep, within]⟩
  refine .cons hwaits fun scan' rest hopen _ => ?_
  obtain rfl := Except.ok.inj (h.opens.symm.trans hopen)
  have hpasses : (embed .start).Passes text (· = embed ⟨read, .plain⟩) :=
    passes_of_trace hinside rfl
  refine hpasses.append ?_
  rintro _ rfl
  refine passes_single (hembed _) fun scan' hclose => hdone scan' ?_
  rwa [h.step_eq, QuotedScan.step_quote, within] at hclose

theorem passes_quoted (h : QuotedReading .paired scan embed done) (hwaits : scan.Waits)
    (hembed : ∀ quoted, (embed quoted).Waits) {s : String} (htext : QuotedText s text)
    (hdone : ∀ scan', done s = .ok scan' → P scan') : scan.Passes text P := by
  obtain ⟨hstring⟩ := htext
  refine h.passes hwaits hembed (hstring.trace []) fun scan' hscan' => hdone scan' ?_
  rwa [List.append_nil, List.reverse_reverse, String.ofList_toList] at hscan'

theorem passes_loose (h : QuotedReading .paired scan embed done) (hwaits : scan.Waits)
    (hembed : ∀ quoted, (embed quoted).Waits) (htext : LooseQuotedText text)
    (hdone : ∀ s scan', done s = .ok scan' → P scan') : scan.Passes text P := by
  obtain @⟨inside, hstring⟩ := htext
  intro rest haccepts
  have hinside : (embed .start).Accepts (inside ++ '"' :: rest) := by
    have hquoted := haccepts
    rw [List.cons_append, List.append_assoc, List.singleton_append] at hquoted
    obtain ⟨scan', hopen, hrest⟩ := hquoted.of_cons
    obtain rfl := Except.ok.inj (h.opens.symm.trans hopen)
    exact hrest
  obtain ⟨read, htrace⟩ := h.exists_trace_of_accepts hstring hinside
  exact h.passes hwaits hembed htrace (fun scan' => hdone _ scan') rest haccepts

end QuotedReading

/-! ### Values of fields -/

/-- A value of the wrong kind is not accepted. -/
theorem not_accepts_mistyped (value : Mistyped) : ¬ (mistyped value).Accepts text := by
  intro haccepts
  induction text generalizing value with
  | nil =>
    obtain ⟨config, hconfig⟩ := haccepts
    cases hconfig
  | cons c text ih =>
    obtain ⟨scan, hstep, hrest⟩ := haccepts.of_cons
    obtain ⟨value', -, rfl⟩ := eq_mistyped_of_map hstep
    exact ih value' hrest

/-- The first character of the value of a field, if it is of the right kind. -/
inductive BeginsField (slot : Slot) : Field → Char → ConfigurationScan → Prop
  | scriptsDir : BeginsField slot .scriptsDir '"' (.text slot .start)
  | list {field} : BeginsField slot (.list field) '[' (.beforeItem slot field [] false)
  | strict : BeginsField slot .warningsAsErrors 't' (.flag slot true ['r', 'u', 'e'])
  | lenient : BeginsField slot .warningsAsErrors 'f' (.flag slot false ['a', 'l', 's', 'e'])

theorem beginsField_of_accepts {slot : Slot} {field : Field}
    (h : beginValue slot field c = .ok scan) (haccepts : scan.Accepts rest) :
    BeginsField slot field c scan := by
  unfold beginValue at h
  split at h
  · cases h
    exact .scriptsDir
  · cases h
    exact .list
  · cases h
    exact .strict
  · cases h
    exact .lenient
  · obtain ⟨value, -, rfl⟩ := eq_mistyped_of_map h
    exact absurd haccepts (not_accepts_mistyped value)

/-- Behind the value of a member. -/
def BehindMember (scan : ConfigurationScan) : Prop :=
  ∃ draft, scan = .afterValue ⟨.member, draft⟩

/-- A value that begins with a quotation mark is a string. -/
theorem looseQuotedText_of_valueText (h : ValueText ('"' :: text)) :
    LooseQuotedText ('"' :: text) := by
  generalize htext : '"' :: text = whole at h ⊢
  cases h with
  | string hstring => exact hstring
  | null | true | false | array | object => exact absurd (List.cons.inj htext).1 (by decide)
  | numeral hnumeral =>
    obtain ⟨c, tail, phase, phase', rfl, hfirst, -⟩ := hnumeral.trace
    obtain rfl := (List.cons.inj htext).1
    cases hfirst

/-- In a list of texts every value must be a string. -/
theorem passes_item {draft : Draft} {field : ListField} {items : List String} {afterComma : Bool}
    (h : ValueText text) :
    (beforeItem ⟨.member, draft⟩ field items afterComma).Passes text fun scan =>
      ∃ items, scan = .afterItem ⟨.member, draft⟩ field items := by
  obtain ⟨c, tail, rfl, hblank, hne⟩ := h.isSkipped.begins
  by_cases hquote : c = '"'
  · subst hquote
    refine (quotedReading_item ⟨.member, draft⟩ field items afterComma).passes_loose rfl
      (fun _ => rfl) (looseQuotedText_of_valueText h) fun s scan' hdone => ?_
    exact ⟨s :: items, (Except.ok.inj hdone).symm⟩
  · refine .cons rfl fun scan' rest hstep haccepts => ?_
    simp only [step, hblank, hquote, hne, Bool.false_eq_true, if_false] at hstep
    obtain ⟨value, -, rfl⟩ := eq_mistyped_of_map hstep
    exact absurd haccepts (not_accepts_mistyped value)

/-- The texts of a list are passed, up to its closing bracket. -/
theorem passes_list {draft : Draft} {field : ListField} {items : List Unit}
    (h : Separated (fun _ => ValueText) items text) :
    (beforeItem ⟨.member, draft⟩ field [] false).Passes (text ++ [']']) BehindMember := by
  have hlist : ListPassing (fun (_ : Unit) => ValueText)
      (fun afterComma scan => ∃ items, scan = .beforeItem ⟨.member, draft⟩ field items afterComma)
      (fun scan => ∃ items, scan = .afterItem ⟨.member, draft⟩ field items) := by
    refine ⟨?_, ?_, ?_, ?_⟩
    · rintro _ _ ⟨items, rfl⟩
      exact ⟨rfl, rfl⟩
    · rintro _ ⟨items, rfl⟩
      exact ⟨rfl, rfl⟩
    · rintro _ _ ⟨items, rfl⟩ hcomma
      exact ⟨items, (Except.ok.inj hcomma).symm⟩
    · rintro _ _ _ _ hitem ⟨items, rfl⟩
      exact passes_item hitem
  refine hlist.passes_closed h ⟨[], rfl⟩ ?_
  rintro _ _ (⟨items, rfl⟩ | ⟨items, rfl⟩) hclose
  · exact ⟨_, (Except.ok.inj hclose).symm⟩
  · exact ⟨_, (Except.ok.inj hclose).symm⟩

theorem trace_flag {slot : Slot} {value : Bool} {letters : List Char} (hne : letters ≠ []) :
    Trace GoesOn (flag slot value letters) letters
      (.afterValue { slot with draft := { slot.draft with warningsAsErrors := some value } }) := by
  induction letters with
  | nil => exact absurd rfl hne
  | cons letter missing ih =>
    by_cases hlast : missing = []
    · subst hlast
      exact .single ⟨rfl, by simp [step]⟩
    · exact .cons ⟨rfl, by simp [step, hlast]⟩ (ih hlast)

/-- **The value of a field is passed**, if the whole is accepted. -/
theorem passes_value {draft : Draft} {field : Field} (h : ValueText text) :
    (beforeValue draft field).Passes text BehindMember := by
  intro rest haccepts
  -- the first character says what is accepted
  obtain ⟨c, tail, htext, hblank, -⟩ := h.isSkipped.begins
  obtain ⟨scan', hbegins⟩ : ∃ scan', BeginsField ⟨.member, draft⟩ field c scan' := by
    rw [htext] at haccepts
    obtain ⟨scan', hstep, hrest⟩ := haccepts.of_cons
    rw [step, hblank] at hstep
    exact ⟨scan', beginsField_of_accepts hstep hrest⟩
  cases h with
  | null | object =>
    obtain rfl := (List.cons.inj htext).1
    cases hbegins
  | true | false =>
    obtain rfl := (List.cons.inj htext).1
    cases hbegins
    exact ⟨_, ⟨_, rfl⟩, .cons ⟨rfl, rfl⟩ (trace_flag (List.cons_ne_nil _ _))⟩
  | numeral hnumeral =>
    obtain ⟨c', tail', phase, phase', rfl, hphase, -⟩ := hnumeral.trace
    obtain rfl := (List.cons.inj htext).1
    cases hbegins with
    | scriptsDir | list | strict | lenient => cases hphase
  | string hstring =>
    obtain @⟨inside, hinside⟩ := hstring
    obtain rfl := (List.cons.inj htext).1
    cases hbegins
    exact (quotedReading_text ⟨.member, draft⟩ rfl).passes_loose rfl (fun _ => rfl) (.intro hinside)
      (fun _ _ hdone => ⟨_, (Except.ok.inj hdone).symm⟩) rest haccepts
  | @array items inside hitems =>
    obtain rfl := (List.cons.inj htext).1
    cases hbegins with
    | @list list =>
      have hpasses : (beforeValue draft (.list list)).Passes ('[' :: (inside ++ [']']))
          BehindMember :=
        .cons rfl fun scan' _ hopen _ => Except.ok.inj hopen ▸ passes_list hitems
      exact hpasses rest haccepts

/-! ### Objects of fields -/

/-- **A member is passed**, if the whole is accepted. -/
theorem passes_member {draft : Draft} {field : Field} {afterComma : Bool}
    (h : KnownMemberText field text) : (beforeKey draft afterComma).Passes text BehindMember := by
  obtain @⟨key, after, before, value, hkey, hafter, hbefore, hvalue⟩ := h
  have hname : (beforeKey draft afterComma).Passes key (· = beforeColon draft (some field)) := by
    refine (quotedReading_key draft afterComma).passes_quoted rfl (fun _ => rfl) hkey ?_
    intro scan' hdone
    rw [afterKey, Field.ofKey?_key] at hdone
    simp only at hdone
    -- a field that is given again is not accepted
    split at hdone
    · cases hdone
    · exact (Except.ok.inj hdone).symm
  have hcolon : (beforeColon draft (some field)).Pauses := ⟨rfl, rfl⟩
  have hplace : (beforeValue draft field).Pauses := ⟨rfl, rfl⟩
  refine hname.append ?_
  rintro _ rfl
  refine hcolon.passes_append hafter (.cons hcolon.waits fun scan' _ hstep _ => ?_)
  obtain rfl : beforeValue draft field = scan' := Except.ok.inj hstep
  exact hplace.passes_append hbefore (passes_value hvalue)

/-- The members of an object are passed, up to its closing bracket. -/
theorem passes_members {draft : Draft} {fields : List Field}
    (h : Separated KnownMemberText fields text) :
    (beforeKey draft false).Passes (text ++ ['\x7d']) fun scan => ∃ draft, scan = .closed draft := by
  have hlist : ListPassing KnownMemberText
      (fun afterComma scan => ∃ draft, scan = .beforeKey draft afterComma) BehindMember := by
    refine ⟨?_, ?_, ?_, ?_⟩
    · rintro _ _ ⟨draft, rfl⟩
      exact ⟨rfl, rfl⟩
    · rintro _ ⟨draft, rfl⟩
      exact ⟨rfl, rfl⟩
    · rintro _ _ ⟨draft, rfl⟩ hcomma
      exact ⟨draft, (Except.ok.inj hcomma).symm⟩
    · rintro _ _ _ _ hmember ⟨draft, rfl⟩
      exact passes_member hmember
  refine hlist.passes_closed h ⟨draft, rfl⟩ ?_
  rintro _ _ (⟨draft, rfl⟩ | ⟨draft, rfl⟩) hclose
  · exact ⟨draft, (Except.ok.inj hclose).symm⟩
  · exact ⟨draft, (Except.ok.inj hclose).symm⟩

/-- **An object of fields that is cut off is incomplete**, if the whole is accepted. -/
theorem finish_of_cut_object {fields : List Field} {cut rest : List Char}
    (h : KnownObjectText fields (cut ++ rest)) (haccepts : opening.Accepts (cut ++ rest))
    (hrest : ¬ AreBlanks rest) : (run cut opening).bind finish = .error .incomplete := by
  generalize htext : cut ++ rest = text at h haccepts
  obtain @⟨before, body, after, hbefore, hbody, hafter⟩ := h
  have hopening : opening.Pauses := ⟨rfl, rfl⟩
  have hobject : opening.Passes (before ++ '\x7b' :: (body ++ ['\x7d']))
      fun scan => ∃ draft, scan = .closed draft :=
    hopening.passes_append hbefore <|
      .cons rfl fun scan' _ hstep _ => Except.ok.inj hstep ▸ passes_members hbody
  have hwhole : before ++ '\x7b' :: (body ++ '\x7d' :: after)
      = before ++ '\x7b' :: (body ++ ['\x7d']) ++ after := by simp
  rw [hwhole] at htext haccepts
  obtain ⟨scan', -, htrace⟩ := hobject after haccepts
  -- the cut is before the last bracket, for behind it there is white space only
  rcases List.append_eq_append_iff.mp htext with ⟨missing, hmain, hlast⟩ | ⟨blanks, -, hlast⟩
  · cases missing with
    | nil => exact absurd (hlast ▸ hafter) hrest
    | cons c missing =>
      rw [hmain] at htrace
      exact finish_of_trace htrace
  · exact absurd (fun c hc => hafter c (hlast ▸ List.mem_append_right _ hc)) hrest

end ConfigurationScan

/-! ### Loading -/

namespace Configuration

variable {fs fs' : FileSystem} {path path' cut rest : String} {config : Configuration}

/-- The text of a file that is loaded is accepted. -/
theorem accepts_of_load {text : String} (hread : fs.readText path = .ok text)
    (hload : load fs path = .ok config) : ConfigurationScan.opening.Accepts text.toList := by
  rw [load_of_readText hread] at hload
  cases htext : ofText text with
  | error fault =>
    rw [htext] at hload
    cases hload
  | ok config' => exact ⟨config', htext⟩

theorem load_of_ofText_error {text : String} {fault : JsonFault} (hread : fs.readText path = .ok text)
    (htext : ofText text = .error fault) : load fs path = .error (.unparsable path fault) := by
  rw [load_of_readText hread, htext]
  rfl

/-- **A configuration that is cut off is never loaded.**  If a file is loaded, a file with the
beginning of its text, without its last character that is no white space, is refused, wherever the
cut is.  If the whole is an object of fields, it is refused as incomplete. -/
theorem load_of_truncated (hread : fs.readText path = .ok (cut ++ rest))
    (hload : load fs path = .ok config) (hrest : ¬ AreBlanks rest.toList)
    (hread' : fs'.readText path' = .ok cut) :
    (∃ fault, load fs' path' = .error (.unparsable path' fault)) ∧
    (∀ fields, KnownObjectText fields (cut ++ rest).toList →
      load fs' path' = .error (.unparsable path' .incomplete)) := by
  have haccepts := accepts_of_load hread hload
  rw [String.toList_append] at haccepts ⊢
  refine ⟨?_, fun fields hobject => ?_⟩
  · obtain ⟨fault, hfault⟩ := ConfigurationScan.finish_of_cut haccepts hrest
    exact ⟨fault, load_of_ofText_error hread' hfault⟩
  · exact load_of_ofText_error hread'
      (ConfigurationScan.finish_of_cut_object hobject haccepts hrest)

/-- A member that is nobody's can make a difference. -/
example : ofText "\x7b\"x\":-1\x7d" = .ok standard ∧ ofText "\x7b\"x\":-" = .error .malformed := by
  decide +kernel

/-- A configuration, its beginning up to within a text, and an empty file. -/
def treeOfCuts : FileSystem :=
  ⟨.directory [
    ("whole", .file "\x7b\"extensions\":[\"\\u0061\"]\x7d\n".toUTF8),
    ("half", .file "\x7b\"extensions\":[\"\\u00".toUTF8),
    ("empty", .file "".toUTF8)], []⟩

/-- The law at these files. -/
theorem load_of_truncated_of_tree :
    load treeOfCuts "whole" = .ok ⟨"assets/scripts", ["a"], [], false⟩ ∧
      load treeOfCuts "half" = .error (.unparsable "half" .incomplete) ∧
      load treeOfCuts "empty" = .error (.unparsable "empty" .incomplete) := by
  have hload : load treeOfCuts "whole" = .ok ⟨"assets/scripts", ["a"], [], false⟩ := by
    decide +kernel
  have hnone := areBlanks_nil
  have hline : AreBlanks ['\n'] := by simp [AreBlanks, isJsonBlank]
  have hletter : HexText 'a'.toNat ['0', '0', '6', '1'] := ⟨rfl, rfl⟩
  have hstring : LooseQuotedText _ := .intro (.cons (.unit hletter) .nil)
  have hlist : ValueText _ := @ValueText.array [()] _ (.single hnone (.string hstring) hnone)
  have hmember : KnownMemberText (.list .extensions) _ :=
    .intro (Json.quotedText_quote "extensions") hnone hnone hlist
  have hobject := KnownObjectText.intro hnone (.single hnone hmember hnone) hline
  refine ⟨hload, ?_, ?_⟩
  · have hread : treeOfCuts.readText "whole" = .ok
      ("\x7b\"extensions\":[\"\\u00" ++ "61\"]\x7d\n") := by decide +kernel
    have hread' : treeOfCuts.readText "half" = .ok "\x7b\"extensions\":[\"\\u00" := by
      decide +kernel
    have hrest : ¬ AreBlanks "61\"]\x7d\n".toList := by simp [AreBlanks, isJsonBlank]
    exact (load_of_truncated hread hload hrest hread').2 _
      (cast (congrArg _ (by decide +kernel)) hobject)
  · have hread : treeOfCuts.readText "whole" = .ok
      ("" ++ "\x7b\"extensions\":[\"\\u0061\"]\x7d\n") := by decide +kernel
    have hread' : treeOfCuts.readText "empty" = .ok "" := by decide +kernel
    have hrest : ¬ AreBlanks "\x7b\"extensions\":[\"\\u0061\"]\x7d\n".toList := by
      simp [AreBlanks, isJsonBlank]
    exact (load_of_truncated hread hload hrest hread').2 _
      (cast (congrArg _ (by decide +kernel)) hobject)

end Configuration

end DialogueScript
