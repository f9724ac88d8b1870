/-
# A configuration has no action lines

A configuration file may itself lie among the scripts, and is then checked like them.  Nothing is
found in it: the text of a configuration has no action lines (`not_actionAt_of_ofText`), so its
report does not depend on what it says (`ofFile_of_configuration`).

An action line begins with `<`, and that character can stand in strings only (`step_less`).  No
string holds a line end, so a line begins outside of strings, and stays there while only white
space has been read (`quoted?_step_of_ne`).  One string is an exception: within a `\u` escape any
four bytes are read before they are judged.  A line end among them makes no digit, and a reading in
which that has happened is lost (`IsLost`): it can go on, but does not end well.
-/
import DialogueScript.Configuration.Text
import DialogueScript.Proofs.Report.Files
import DialogueScript.Proofs.Script.Report

namespace DialogueScript

/-! ### Strings -/

namespace QuotedScan

/-- Within an escape, with something else than a digit read. -/
def IsLost (quoted : QuotedScan) : Prop :=
  ∃ lead bytes, quoted.phase = .unicode lead bytes none

/-- What is lost stays lost, and a line end is always lost. -/
theorem isLost_of_step {rule : SurrogateRule} {quoted : QuotedScan} {c : Char} {next : QuotedNext}
    (h : quoted.step rule c = .ok next) (hlost : quoted.IsLost ∨ c = '\n') :
    ∃ quoted', next = .more quoted' ∧ quoted'.IsLost := by
  -- within an escape, a character that gives no digit leaves no value
  have hunicode : ∀ lead bytes value, quoted.phase = .unicode lead bytes value →
      (value.bind fun high => (hexValue? c).map fun digit => 16 * high + digit) = none →
      ∃ quoted', next = .more quoted' ∧ quoted'.IsLost := by
    intro lead bytes value hphase hvalue
    simp only [step, hphase, hvalue] at h
    split at h
    · exact ⟨_, (Except.ok.inj h).symm, lead, _, rfl⟩
    · cases h
  rcases hlost with ⟨lead, bytes, hphase⟩ | rfl
  · exact hunicode lead bytes none hphase rfl
  · -- outside of such an escape a string has no line end
    cases hphase : quoted.phase with
    | unicode lead bytes value => exact hunicode lead bytes value hphase (by cases value <;> rfl)
    | plain | escaped | leadRead | leadEscaped => simp [step, hphase, shortEscape?] at h

end QuotedScan

/-- What a character outside of strings leads to: letters of a literal, but not `<`, and a string
only behind a quotation mark. -/
structure LeadsTo (c : Char) (missing : List Char) (quoted? : Option QuotedScan) : Prop where
  less_not_mem : '<' ∉ missing
  quoted?_eq : c ≠ '"' → quoted? = none

theorem leadsTo_nothing (c : Char) : LeadsTo c [] none :=
  ⟨List.not_mem_nil, fun _ => rfl⟩

theorem leadsTo_quoted (quoted : QuotedScan) : LeadsTo '"' [] (some quoted) :=
  ⟨List.not_mem_nil, fun h => absurd rfl h⟩

theorem leadsTo_missing {c : Char} {missing : List Char} (h : '<' ∉ missing) :
    LeadsTo c missing none :=
  ⟨h, fun _ => rfl⟩

/-- The rests of the literals. -/
theorem less_not_mem_literals :
    '<' ∉ ['u', 'l', 'l'] ∧ '<' ∉ ['r', 'u', 'e'] ∧ '<' ∉ ['a', 'l', 's', 'e'] := by
  decide

/-- No white space and no numeral begins with `<`. -/
theorem less_begins_nothing : isJsonBlank '<' = false ∧ NumeralPhase.first? '<' = none := by
  decide

/-- No numeral goes on with `<`. -/
theorem NumeralPhase.step_less (phase phase' : NumeralPhase) : phase.step '<' ≠ .more phase' := by
  cases phase with
  | minus | zero | whole | point | fraction | mark | markSign | exponent =>
    exact NumeralNext.noConfusion

/-! ### Skipped values -/

namespace Skip

/-- The string that is being read, if there is one. -/
def quoted? (skip : Skip) : Option QuotedScan :=
  match skip.phase with
  | .key quoted | .text quoted => some quoted
  | _ => none

/-- The letters of a literal that are still missing. -/
def missing (skip : Skip) : List Char :=
  match skip.phase with
  | .word missing => missing
  | _ => []

/-- What a character leads to in a skipped value, unless it ends it. -/
def Follows (c : Char) : SkipNext → Prop
  | .more skip => LeadsTo c skip.missing skip.quoted?
  | .ended | .endedBefore => True

variable {stack : List Bracket} {skip : Skip} {c : Char} {next : SkipNext}

theorem follows_complete (stack : List Bracket) (c : Char) : Follows c (complete stack) := by
  cases stack with
  | nil => trivial
  | cons => exact leadsTo_nothing c

theorem follows_beginValue (h : beginValue stack c = .ok next) : c ≠ '<' ∧ Follows c next := by
  have hliterals := less_not_mem_literals
  unfold beginValue at h
  split at h
  all_goals grind [Follows, missing, quoted?, leadsTo_nothing, leadsTo_missing, leadsTo_quoted,
    less_begins_nothing]

theorem follows_stepAfterValue (h : stepAfterValue stack c = .ok next) :
    c ≠ '<' ∧ Follows c next := by
  have hblank := less_begins_nothing.1
  unfold stepAfterValue at h
  grind [Follows, missing, quoted?, leadsTo_nothing, follows_complete]

/-- Outside of strings, `<` is not part of a skipped value. -/
theorem follows_step (houtside : skip.quoted? = none) (hmissing : '<' ∉ skip.missing)
    (h : skip.step c = .ok next) : (c = '<' → next = .endedBefore) ∧ Follows c next := by
  -- where a value begins or ends, `<` is refused
  have hbegin : ∀ {stack}, beginValue stack c = .ok next →
      (c = '<' → next = .endedBefore) ∧ Follows c next := by
    intro stack h
    obtain ⟨hc, hfollows⟩ := follows_beginValue h
    exact ⟨fun hless => absurd hless hc, hfollows⟩
  have hafter : ∀ {stack}, stepAfterValue stack c = .ok next →
      (c = '<' → next = .endedBefore) ∧ Follows c next := by
    intro stack h
    obtain ⟨hc, hfollows⟩ := follows_stepAfterValue h
    exact ⟨fun hless => absurd hless hc, hfollows⟩
  have hblank := less_begins_nothing.1
  have hnothing := leadsTo_nothing c
  have hcomplete := fun stack => follows_complete stack c
  obtain ⟨stack, phase⟩ := skip
  cases phase with
  | key quoted | text quoted => cases houtside
  | beforeValue | beforeFirstItem | beforeKey | beforeColon =>
    simp only [step, enter] at h
    grind [Follows, missing, quoted?, leadsTo_quoted]
  | word letters =>
    cases letters with
    | nil => cases h
    | cons letter letters =>
      simp only [step, enter] at h
      grind [Follows, missing, quoted?, leadsTo_missing]
  | numeral phase =>
    simp only [step, enter] at h
    grind [Follows, missing, quoted?, NumeralPhase.step_less]
  | afterValue => exact hafter h

/-- A string in a skipped value is read on, or ends, and then no literal has begun. -/
theorem quoted?_step {quoted : QuotedScan} (hinside : skip.quoted? = some quoted)
    (h : skip.step c = .ok next) :
    (∃ quoted' skip', quoted.step .any c = .ok (.more quoted') ∧ next = .more skip' ∧
      skip'.quoted? = some quoted' ∧ skip'.missing = []) ∨
    (∃ text, quoted.step .any c = .ok (.closed text)) ∧ Follows c next := by
  obtain ⟨stack, phase⟩ := skip
  cases phase with
  | key quoted =>
    simp only [step, enter] at h
    grind [Follows, missing, quoted?, leadsTo_nothing]
  | text quoted =>
    simp only [step, enter] at h
    grind [Follows, missing, quoted?, follows_complete]
  | beforeValue | beforeFirstItem | beforeKey | beforeColon | word | numeral | afterValue =>
    cases hinside

end Skip

/-! ### Values of the wrong kind -/

namespace Mistyped

/-- The string that is being read, if there is one. -/
def quoted? : Mistyped → Option QuotedScan
  | text quoted => some quoted
  | word _ | numeral .. => none

/-- The letters of a literal that are still missing. -/
def missing : Mistyped → List Char
  | word missing => missing
  | text _ | numeral .. => []

variable {value value' : Mistyped} {c : Char}

theorem leadsTo_begin (h : begin c = .ok value) :
    c ≠ '<' ∧ LeadsTo c value.missing value.quoted? := by
  have hliterals := less_not_mem_literals
  unfold begin at h
  split at h
  all_goals grind [missing, quoted?, leadsTo_nothing, leadsTo_missing, leadsTo_quoted,
    less_begins_nothing]

/-- Outside of strings, `<` is not part of a value. -/
theorem leadsTo_step (houtside : value.quoted? = none) (hmissing : '<' ∉ value.missing)
    (h : value.step c = .ok value') : c ≠ '<' ∧ LeadsTo c value'.missing value'.quoted? := by
  cases value with
  | text => cases houtside
  | word letters =>
    cases letters with
    | nil => cases h
    | cons letter letters => grind [step, missing, quoted?, leadsTo_missing]
  | numeral read phase =>
    grind [step, missing, quoted?, leadsTo_nothing, NumeralPhase.step_less]

theorem quoted?_step {quoted : QuotedScan} (hinside : value.quoted? = some quoted)
    (h : value.step c = .ok value') :
    ∃ quoted', quoted.step .paired c = .ok (.more quoted') ∧ value'.quoted? = some quoted' ∧
      value'.missing = [] := by
  cases value with
  | text => grind [step, missing, quoted?]
  | word | numeral => cases hinside

end Mistyped

/-! ### Configurations -/

namespace ConfigurationScan

/-- The string that is being read, if there is one. -/
def quoted? : ConfigurationScan → Option QuotedScan
  | key _ quoted | text _ quoted | item _ _ _ quoted => some quoted
  | skipping _ skip => skip.quoted?
  | mistyped value => value.quoted?
  | _ => none

/-- The letters of a literal that are still missing. -/
def missing : ConfigurationScan → List Char
  | flag _ _ missing => missing
  | skipping _ skip => skip.missing
  | mistyped value => value.missing
  | _ => []

variable {scan scan' : ConfigurationScan} {c : Char}

theorem eq_mistyped_of_map {read : Except JsonFault Mistyped} (h : read.map mistyped = .ok scan) :
    ∃ value, read = .ok value ∧ scan = mistyped value := by
  cases read with
  | error fault => cases h
  | ok value => exact ⟨value, rfl, (Except.ok.inj h).symm⟩

theorem leadsTo_mistyped (h : (Mistyped.begin c).map mistyped = .ok scan) :
    c ≠ '<' ∧ LeadsTo c scan.missing scan.quoted? := by
  obtain ⟨value, hvalue, rfl⟩ := eq_mistyped_of_map h
  exact Mistyped.leadsTo_begin hvalue

theorem leadsTo_beginValue {slot : Slot} {field : Field} (h : beginValue slot field c = .ok scan) :
    c ≠ '<' ∧ LeadsTo c scan.missing scan.quoted? := by
  have hliterals := less_not_mem_literals
  unfold beginValue at h
  split at h
  all_goals grind [missing, quoted?, leadsTo_nothing, leadsTo_missing, leadsTo_quoted,
    leadsTo_mistyped]

theorem leadsTo_stepAfterValue {slot : Slot} (h : stepAfterValue slot c = .ok scan) :
    c ≠ '<' ∧ LeadsTo c scan.missing scan.quoted? := by
  have hblank := less_begins_nothing.1
  unfold stepAfterValue at h
  grind [missing, quoted?, leadsTo_nothing]

/-- **Outside of strings there is no `<`**, and strings begin with a quotation mark. -/
theorem leadsTo_step (houtside : scan.quoted? = none) (hmissing : '<' ∉ scan.missing)
    (h : scan.step c = .ok scan') : c ≠ '<' ∧ LeadsTo c scan'.missing scan'.quoted? := by
  have hblank := less_begins_nothing.1
  cases scan with
  | key | text | item => cases houtside
  | opening | closed | beforeKey | beforeColon | beforeElement | beforeValue | beforeItem
  | afterItem =>
    simp only [step] at h
    grind [missing, quoted?, leadsTo_nothing, leadsTo_quoted, leadsTo_mistyped, leadsTo_beginValue,
      Skip.start, Skip.missing, Skip.quoted?]
  | afterValue => exact leadsTo_stepAfterValue h
  | flag slot value letters =>
    cases letters with
    | nil => cases h
    | cons letter letters =>
      simp only [step] at h
      grind [missing, quoted?, leadsTo_nothing, leadsTo_missing]
  | skipping draft skip =>
    -- a skipped value can end before the character, which then stands behind it
    rw [step] at h
    split at h
    · next skip' hskip =>
      obtain ⟨hless, hfollows⟩ := Skip.follows_step houtside hmissing hskip
      obtain rfl := Except.ok.inj h
      exact ⟨fun hc => SkipNext.noConfusion (hless hc), hfollows⟩
    · next hskip =>
      obtain ⟨hless, -⟩ := Skip.follows_step houtside hmissing hskip
      obtain rfl := Except.ok.inj h
      exact ⟨fun hc => SkipNext.noConfusion (hless hc), leadsTo_nothing c⟩
    · exact leadsTo_stepAfterValue h
    · cases h
  | mistyped value =>
    obtain ⟨value', hvalue, rfl⟩ := eq_mistyped_of_map h
    exact Mistyped.leadsTo_step houtside hmissing hvalue

/-- A string is read on, or ends, and then no literal has begun. -/
theorem quoted?_step {quoted : QuotedScan} (hinside : scan.quoted? = some quoted)
    (h : scan.step c = .ok scan') :
    '<' ∉ scan'.missing ∧ ∃ rule,
      (∃ quoted', quoted.step rule c = .ok (.more quoted') ∧ scan'.quoted? = some quoted') ∨
      ∃ text, quoted.step rule c = .ok (.closed text) := by
  cases scan with
  | key | text | item =>
    simp only [step] at h
    grind [missing, quoted?, afterKey]
  | skipping draft skip =>
    rw [step] at h
    split at h
    · next skip' hskip =>
      obtain rfl := Except.ok.inj h
      rcases Skip.quoted?_step hinside hskip with ⟨quoted', _, hread, hmore, hquoted, hmissing⟩ |
        ⟨hclosed, hfollows⟩
      · obtain rfl := SkipNext.more.inj hmore
        have hnone : '<' ∉ skip'.missing := hmissing ▸ List.not_mem_nil
        exact ⟨hnone, .any, .inl ⟨quoted', hread, hquoted⟩⟩
      · exact ⟨hfollows.less_not_mem, .any, .inr hclosed⟩
    · next hskip =>
      obtain rfl := Except.ok.inj h
      rcases Skip.quoted?_step hinside hskip with ⟨_, _, _, hmore, -⟩ | ⟨hclosed, -⟩
      · cases hmore
      · exact ⟨List.not_mem_nil, .any, .inr hclosed⟩
    · next hskip =>
      rcases Skip.quoted?_step hinside hskip with ⟨_, _, _, hmore, -⟩ | ⟨hclosed, -⟩
      · cases hmore
      · exact ⟨(leadsTo_stepAfterValue h).2.less_not_mem, .any, .inr hclosed⟩
    · cases h
  | mistyped value =>
    obtain ⟨value', hvalue, rfl⟩ := eq_mistyped_of_map h
    grind [missing, quoted?, Mistyped.quoted?_step]
  | opening | closed | beforeKey | beforeColon | beforeElement | beforeValue | beforeItem
  | afterItem | afterValue | flag => cases hinside

/-- In a string that does not end well. -/
def IsLost (scan : ConfigurationScan) : Prop :=
  ∃ quoted, scan.quoted? = some quoted ∧ quoted.IsLost

/-- A reading that is lost stays lost, and in a string a line end loses it. -/
theorem isLost_step {quoted : QuotedScan} (hinside : scan.quoted? = some quoted)
    (h : scan.step c = .ok scan') (hlost : quoted.IsLost ∨ c = '\n') : scan'.IsLost := by
  obtain ⟨-, rule, ⟨quoted', hread, hquoted⟩ | ⟨text, hclosed⟩⟩ := quoted?_step hinside h
  · obtain ⟨_, hmore, hlost'⟩ := QuotedScan.isLost_of_step hread hlost
    obtain rfl := QuotedNext.more.inj hmore
    exact ⟨quoted', hquoted, hlost'⟩
  · obtain ⟨_, hmore, -⟩ := QuotedScan.isLost_of_step hclosed hlost
    cases hmore

theorem finish_ne_ok_of_quoted? {quoted : QuotedScan} (hinside : scan.quoted? = some quoted)
    (config : Configuration) : scan.finish ≠ .ok config := by
  intro h
  cases scan with
  | closed => cases hinside
  | opening | beforeKey | key | beforeColon | skipping | beforeElement | beforeValue | afterValue
  | text | flag | beforeItem | item | afterItem | mistyped => cases h

/-! #### Runs -/

/-- A text that is read from a state on to a good end. -/
def Accepts (scan : ConfigurationScan) (text : List Char) : Prop :=
  ∃ config, (run text scan).bind finish = .ok config

theorem Accepts.of_cons {text : List Char} (h : scan.Accepts (c :: text)) :
    ∃ scan', scan.step c = .ok scan' ∧ scan'.Accepts text := by
  obtain ⟨config, hconfig⟩ := h
  rw [run] at hconfig
  cases hstep : scan.step c with
  | error fault =>
    rw [hstep] at hconfig
    cases hconfig
  | ok scan' =>
    rw [hstep] at hconfig
    exact ⟨scan', rfl, config, hconfig⟩

theorem not_accepts_of_isLost {text : List Char} (hlost : scan.IsLost) : ¬ scan.Accepts text := by
  intro h
  induction text generalizing scan with
  | nil =>
    obtain ⟨quoted, hinside, -⟩ := hlost
    obtain ⟨config, hconfig⟩ := h
    exact finish_ne_ok_of_quoted? hinside config hconfig
  | cons c text ih =>
    obtain ⟨quoted, hinside, hquoted⟩ := hlost
    obtain ⟨scan', hstep, haccepts⟩ := h.of_cons
    exact ih (isLost_step hinside hstep (.inl hquoted)) haccepts

/-- What is read when a line has been read to its end stands outside of strings. -/
structure AtLineStart (scan : ConfigurationScan) : Prop where
  outside : scan.quoted? = none
  less_not_mem : '<' ∉ scan.missing

/-- No text with `<` as the first character of its first line is read to a good end. -/
theorem not_accepts_blanks_less {blanks text : List Char} (h : scan.AtLineStart)
    (hblanks : ∀ c ∈ blanks, isBlank c = true) : ¬ scan.Accepts (blanks ++ '<' :: text) := by
  intro haccepts
  -- along the white space, which opens no string
  induction blanks generalizing scan with
  | nil =>
    obtain ⟨scan', hstep, -⟩ := haccepts.of_cons
    exact (leadsTo_step h.outside h.less_not_mem hstep).1 rfl
  | cons blank blanks ih =>
    obtain ⟨hblank, hrest⟩ := List.forall_mem_cons.mp hblanks
    obtain ⟨scan', hstep, haccepts'⟩ := haccepts.of_cons
    obtain ⟨-, hleads⟩ := leadsTo_step h.outside h.less_not_mem hstep
    have hne : blank ≠ '"' := by
      rintro rfl
      cases hblank
    exact ih ⟨hleads.quoted?_eq hne, hleads.less_not_mem⟩ hrest haccepts'

/-- Letters of literals are never `<`. -/
theorem less_not_mem_step (hmissing : '<' ∉ scan.missing) (h : scan.step c = .ok scan') :
    '<' ∉ scan'.missing := by
  cases hquoted : scan.quoted? with
  | none => exact (leadsTo_step hquoted hmissing h).2.less_not_mem
  | some quoted => exact (quoted?_step hquoted h).1

/-- A text that is read to a good end is outside of strings behind each of its line ends. -/
theorem Accepts.of_append {before text : List Char} (h : scan.Accepts (before ++ '\n' :: text))
    (hmissing : '<' ∉ scan.missing) :
    ∃ scan' : ConfigurationScan, scan'.AtLineStart ∧ scan'.Accepts text := by
  induction before generalizing scan with
  | nil =>
    obtain ⟨scan', hstep, haccepts⟩ := h.of_cons
    cases hquoted : scan.quoted? with
    | none =>
      obtain ⟨-, hleads⟩ := leadsTo_step hquoted hmissing hstep
      exact ⟨scan', ⟨hleads.quoted?_eq (by decide), hleads.less_not_mem⟩, haccepts⟩
    | some quoted =>
      exact absurd haccepts (not_accepts_of_isLost (isLost_step hquoted hstep (.inr rfl)))
  | cons c before ih =>
    obtain ⟨scan', hstep, haccepts⟩ := h.of_cons
    exact ih haccepts (less_not_mem_step hmissing hstep)

end ConfigurationScan

/-! ### Lines -/

/-- **The text of a configuration has no action lines.** -/
theorem not_actionAt_of_ofText {text : String} {config : Configuration}
    (h : Configuration.ofText text = .ok config) (number : Nat) (raw : String) :
    ¬ ActionAt text number raw := by
  rintro ⟨segment, ⟨before, after, htext, -, hbefore, -⟩, ⟨blanks, ending, hsegment, hblanks, -⟩,
    hhead, -⟩
  obtain ⟨line, hline⟩ : ∃ line, raw.toList = '<' :: line := List.head?_eq_some_iff.mp hhead
  have haccepts : ConfigurationScan.opening.Accepts text.toList := ⟨config, h⟩
  have hlinetext : segment ++ after = blanks ++ '<' :: (line ++ ending ++ after) := by
    simp [hsegment, hline]
  rw [htext, List.append_assoc, hlinetext] at haccepts
  -- the line is the first, or stands behind a line end
  rcases hbefore with rfl | hbefore
  · exact ConfigurationScan.not_accepts_blanks_less ⟨rfl, List.not_mem_nil⟩ hblanks haccepts
  · obtain ⟨lines, rfl⟩ := List.getLast?_eq_some_iff.mp hbefore
    rw [List.append_assoc] at haccepts
    obtain ⟨scan, hstart, haccepts⟩ := haccepts.of_append List.not_mem_nil
    exact ConfigurationScan.not_accepts_blanks_less hstart hblanks haccepts

/-- The report on a file with the text of a configuration says no more than that there are no action
lines. -/
theorem ofFile_of_configuration {fs : FileSystem} {path text : String} {config : Configuration}
    (known : List String) (hread : fs.readText path = .ok text)
    (h : Configuration.ofText text = .ok config) :
    Report.ofFile fs known path = ⟨1, [summary path 0], Catalogue.empty⟩ := by
  have hlines : actionLines text = [] := by
    apply List.eq_nil_iff_forall_not_mem.mpr
    rintro ⟨number, raw⟩ hmem
    exact not_actionAt_of_ofText h number raw (mem_actionLines.mp hmem)
  have hactions : (scriptLines text).filterMap Line.action? = [] := by
    apply List.filterMap_eq_nil_iff.mpr
    rintro ⟨kind, number, raw⟩ hmem
    cases kind with
    | dialogue => rfl
    | action =>
      have hline : (number, raw) ∈ actionLines text :=
        List.mem_map.mpr ⟨_, List.mem_filter.mpr ⟨hmem, rfl⟩, rfl⟩
      rw [hlines] at hline
      cases hline
  rw [Report.ofFile, hread]
  simp only [checkScript_eq, hlines, scriptUsage, hactions]
  rfl

end DialogueScript
