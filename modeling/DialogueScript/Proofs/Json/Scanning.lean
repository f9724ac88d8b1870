/-
# Strings and numerals are scanned

Strings and numerals are read character by character.  `Trace` says from which state a text leads to
which other; a machine that contains such a scan goes through the same states.

A string with escapes leads to the characters that it says (`StringText.trace`), and one that is
only passed over leads somewhere (`LooseStringText.trace`).  What follows the four digits of an escape is
left open by `trace_unit`, for that is where the two differ.  A numeral leads to a state in which it
may end (`NumeralText.trace`), and does end before every character that continues no numeral
(`NumeralPhase.step_eq_ended`).
-/
import DialogueScript.Json.Numeral
import DialogueScript.Proofs.Json.Values

namespace DialogueScript

/-! ### Traces -/

/-- A text leads from one state to another. -/
inductive Trace {State : Type} (Step : State → Char → State → Prop) :
    State → List Char → State → Prop
  | nil {s} : Trace Step s [] s
  | cons {s s' s'' c text} : Step s c s' → Trace Step s' text s'' → Trace Step s (c :: text) s''

namespace Trace

variable {State : Type} {Step : State → Char → State → Prop} {s s' s'' : State}
  {text text' : List Char}

theorem append (h : Trace Step s text s') (h' : Trace Step s' text' s'') :
    Trace Step s (text ++ text') s'' := by
  induction h with
  | nil => exact h'
  | cons hstep _ ih => exact .cons hstep (ih h')

theorem single {c : Char} (h : Step s c s') : Trace Step s [c] s' :=
  .cons h .nil

/-- A machine that contains another one goes through its states. -/
theorem map {State' : Type} {Step' : State' → Char → State' → Prop} (embed : State → State')
    (hembed : ∀ s c s', Step s c s' → Step' (embed s) c (embed s')) (h : Trace Step s text s') :
    Trace Step' (embed s) text (embed s') := by
  induction h with
  | nil => exact .nil
  | cons hstep _ ih => exact .cons (hembed _ _ _ hstep) ih

/-- Characters that change nothing. -/
theorem of_forall (h : ∀ c ∈ text, Step s c s) : Trace Step s text s := by
  induction text with
  | nil => exact .nil
  | cons c text ih =>
    obtain ⟨hc, htext⟩ := List.forall_mem_cons.mp h
    exact .cons hc (ih htext)

end Trace

/-! ### Strings -/

namespace QuotedScan

/-- A character within a string is read. -/
def GoesOn (rule : SurrogateRule) (scan : QuotedScan) (c : Char) (scan' : QuotedScan) : Prop :=
  scan.step rule c = .ok (.more scan')

variable {rule : SurrogateRule} {read : List Char} {c : Char}

theorem step_quote (rule : SurrogateRule) (read : List Char) :
    step rule ⟨read, .plain⟩ '"' = .ok (.closed (String.ofList read.reverse)) := rfl

theorem trace_plain (hlarge : 0x20 ≤ c.toNat) (hquote : c ≠ '"') (hbackslash : c ≠ '\\') :
    Trace (GoesOn rule) ⟨read, .plain⟩ [c] ⟨c :: read, .plain⟩ := by
  apply Trace.single
  rw [GoesOn, step, if_neg hquote, if_neg hbackslash, if_neg (Nat.not_lt.mpr hlarge), push]

theorem trace_short {letter : Char} (h : shortEscape? letter = some c) :
    Trace (GoesOn rule) ⟨read, .plain⟩ ['\\', letter] ⟨c :: read, .plain⟩ := by
  have hne : letter ≠ 'u' := by
    rintro rfl
    cases h
  have hletter : step rule ⟨read, .escaped⟩ letter = .ok (.more ⟨c :: read, .plain⟩) := by
    simp only [step, if_neg hne, h, push]
  exact .cons rfl (.single hletter)

/-- A hexadecimal digit takes one byte. -/
theorem utf8Size_of_hexValue? {digit : Nat} (h : hexValue? c = some digit) : c.utf8Size = 1 := by
  have hsmall : c.toNat ≤ 0x7F := by
    unfold hexValue? at h
    split at h
    · next hdigit =>
      simp only [Char.isDigit, Bool.and_eq_true, decide_eq_true_eq] at hdigit
      have hle : c.toNat ≤ 0x39 := hdigit.2
      omega
    · split at h
      · next hlower =>
        have hle : c.toNat ≤ 0x66 := hlower.2
        omega
      · split at h
        · next hupper =>
          have hle : c.toNat ≤ 0x46 := hupper.2
          omega
        · cases h
  exact if_pos hsmall

/-- One of the first three digits of an escape. -/
theorem goesOn_digit {lead : Option Nat} {bytes high digit : Nat} (h : hexValue? c = some digit)
    (hbytes : bytes + 1 < 4) :
    GoesOn rule ⟨read, .unicode lead bytes (some high)⟩ c
      ⟨read, .unicode lead (bytes + 1) (some (16 * high + digit))⟩ := by
  simp only [GoesOn, step, utf8Size_of_hexValue? h, h, Option.bind_some, Option.map_some, enter,
    if_pos hbytes]

/-- Behind the fourth digit of an escape its value is taken. -/
theorem trace_unit {lead : Option Nat} {unit : Nat} {digits : List Char} {scan : QuotedScan}
    (h : HexText unit digits)
    (htake : ∀ phase, takeUnit rule ⟨read, phase⟩ lead unit = .ok (.more scan)) :
    Trace (GoesOn rule) ⟨read, .unicode lead 0 (some 0)⟩ digits scan := by
  obtain ⟨hlength, hvalue⟩ := h
  match digits, hlength with
  | [first, second, third, fourth], _ =>
    have hdigits := (hexValue?_of_foldl hvalue).2
    simp only [List.forall_mem_cons, List.not_mem_nil, false_imp_iff, implies_true, and_true]
      at hdigits
    obtain ⟨⟨_, hfirst⟩, ⟨_, hsecond⟩, ⟨_, hthird⟩, ⟨_, hfourth⟩⟩ := hdigits
    simp only [hexNumber?, List.foldl_cons, List.foldl_nil, Option.bind_some, Option.map_some,
      hfirst, hsecond, hthird, hfourth] at hvalue
    obtain rfl := Option.some.inj hvalue
    -- only the fourth byte completes the escape
    refine .cons (goesOn_digit hfirst (by decide)) (.cons (goesOn_digit hsecond (by decide))
      (.cons (goesOn_digit hthird (by decide)) (.single ?_)))
    simp only [GoesOn, step, utf8Size_of_hexValue? hfourth, hfourth, Option.bind_some,
      Option.map_some]
    exact htake _

/-- A leading surrogate is no trailing one. -/
theorem isTrail_of_isLead {unit : Nat} (h : isLead unit = true) : isTrail unit = false := by
  simp only [isLead, isTrail, Bool.and_eq_true, decide_eq_true_eq, Bool.and_eq_false_iff,
    decide_eq_false_iff_not] at h ⊢
  omega

theorem isTrail_toNat (c : Char) : isTrail c.toNat = false := by
  have hvalid : c.toNat < 0xD800 ∨ 0xDFFF < c.toNat ∧ c.toNat < 0x110000 := c.valid
  rw [isTrail, Bool.and_eq_false_iff, decide_eq_false_iff_not, decide_eq_false_iff_not]
  omega

end QuotedScan

open QuotedScan in
/-- However a character is written, it is read. -/
theorem CharText.trace {c : Char} {text : List Char} (h : CharText c text) (read : List Char) :
    Trace (GoesOn .paired) ⟨read, .plain⟩ text ⟨c :: read, .plain⟩ := by
  cases h with
  | plain hlarge hquote hbackslash => exact trace_plain hlarge hquote hbackslash
  | short hshort => exact trace_short hshort
  | unit hunit =>
    refine .cons rfl (.cons rfl (trace_unit hunit fun phase => ?_))
    rw [takeUnit, isTrail_toNat, isLead_toNat, Char.ofNat_toNat]
    rfl
  | @pair lead trail _ _ hlead hislead htrail histrail =>
    have hfirst : ∀ phase, takeUnit .paired ⟨read, phase⟩ none lead
        = .ok (.more ⟨read, .leadRead lead⟩) := by
      intro phase
      rw [takeUnit, isTrail_of_isLead hislead, hislead]
      rfl
    have hsecond : ∀ phase, takeUnit .paired ⟨read, phase⟩ (some lead) trail
        = .ok (.more ⟨pairedChar lead trail :: read, .plain⟩) := by
      intro phase
      rw [takeUnit, if_pos histrail, push]
    refine .cons rfl (.cons rfl ((trace_unit hlead hfirst).append ?_))
    exact .cons rfl (.cons rfl (trace_unit htrail hsecond))

open QuotedScan in
/-- **A string is read as what it says**, behind what was read before. -/
theorem StringText.trace {s text : List Char} (h : StringText s text) (read : List Char) :
    Trace (GoesOn .paired) ⟨read, .plain⟩ text ⟨s.reverse ++ read, .plain⟩ := by
  induction h generalizing read with
  | nil => exact .nil
  | cons hchar _ ih =>
    rw [List.reverse_cons, List.append_assoc]
    exact (hchar.trace read).append (ih _)

open QuotedScan in
theorem LooseCharText.trace {text : List Char} (h : LooseCharText text) (read : List Char) :
    ∃ c, Trace (GoesOn .any) ⟨read, .plain⟩ text ⟨c :: read, .plain⟩ := by
  cases h with
  | plain hlarge hquote hbackslash => exact ⟨_, trace_plain hlarge hquote hbackslash⟩
  | short hshort => exact ⟨_, trace_short hshort⟩
  | unit hunit => exact ⟨_, .cons rfl (.cons rfl (trace_unit hunit fun _ => rfl))⟩

open QuotedScan in
/-- A string that is passed over is read, whatever it says. -/
theorem LooseStringText.trace {text : List Char} (h : LooseStringText text) (read : List Char) :
    ∃ read', Trace (GoesOn .any) ⟨read, .plain⟩ text ⟨read', .plain⟩ := by
  induction h generalizing read with
  | nil => exact ⟨read, .nil⟩
  | cons hchar _ ih =>
    obtain ⟨c, htrace⟩ := hchar.trace read
    obtain ⟨read', htrace'⟩ := ih (c :: read)
    exact ⟨read', htrace.append htrace'⟩

/-! ### Numerals -/

namespace NumeralPhase

/-- A character within a numeral is read. -/
def GoesOn (phase : NumeralPhase) (c : Char) (phase' : NumeralPhase) : Prop :=
  phase.step c = .more phase'

variable {phase phase' : NumeralPhase} {c : Char}

/-- What a numeral begins with. -/
theorem eq_or_isDigit_of_first? (h : first? c = some phase) : c = '-' ∨ c.isDigit = true := by
  unfold first? at h
  split at h
  · next hminus => exact .inl hminus
  · split at h
    · next hzero => exact .inr (hzero ▸ rfl)
    · split at h
      · next hdigit => exact .inr hdigit
      · cases h

/-- The phase behind a digit; a minus and a zero take digits in another way, or not at all. -/
def afterDigit? : NumeralPhase → Option NumeralPhase
  | .whole => some .whole
  | .point | .fraction => some .fraction
  | .mark | .markSign | .exponent => some .exponent
  | .minus | .zero => none

theorem goesOn_of_isDigit (h : phase.afterDigit? = some phase') (hc : c.isDigit = true) :
    GoesOn phase c phase' := by
  cases phase with
  | minus | zero => cases h
  | whole | point | fraction | mark | markSign | exponent =>
    obtain rfl := Option.some.inj h
    rw [GoesOn, step, if_pos hc]

/-- One or more digits of a numeral, where those behind the first change nothing. -/
theorem trace_digits {digits : List Char} (h : IsDigits digits)
    (hfirst : phase.afterDigit? = some phase') (hrest : phase'.afterDigit? = some phase') :
    Trace GoesOn phase digits phase' := by
  obtain ⟨hne, hdigits⟩ := h
  obtain ⟨c, rest, rfl⟩ := List.exists_cons_of_ne_nil hne
  obtain ⟨hc, hdigits⟩ := List.forall_mem_cons.mp hdigits
  have hloop : Trace GoesOn phase' rest phase' :=
    .of_forall fun d hd => goesOn_of_isDigit hrest (hdigits d hd)
  exact .cons (goesOn_of_isDigit hfirst hc) hloop

end NumeralPhase

open NumeralPhase

/-- The whole part of a numeral, with or without a minus before it. -/
theorem NaturalText.trace {n : Nat} {digits : List Char} (h : NaturalText n digits) :
    ∃ c rest phase, digits = c :: rest ∧ (phase = .zero ∨ phase = .whole) ∧
      first? c = some phase ∧ GoesOn .minus c phase ∧ Trace GoesOn phase rest phase := by
  obtain ⟨⟨hne, hdigits⟩, hleading, -⟩ := h
  obtain ⟨c, rest, rfl⟩ := List.exists_cons_of_ne_nil hne
  obtain ⟨hc, hrest⟩ := List.forall_mem_cons.mp hdigits
  by_cases hzero : c = '0'
  · -- a zero that leads no other digits
    subst hzero
    obtain rfl := (List.cons.inj (hleading rfl)).2
    exact ⟨_, _, .zero, rfl, .inl rfl, rfl, rfl, .nil⟩
  · have hminus : c ≠ '-' := by
      rintro rfl
      cases hc
    refine ⟨c, rest, .whole, rfl, .inr rfl, ?_, ?_, .of_forall fun d hd => ?_⟩
    · rw [first?, if_neg hminus, if_neg hzero, if_pos hc]
    · rw [GoesOn, step, if_neg hzero, if_pos hc]
    · exact goesOn_of_isDigit rfl (hrest d hd)

theorem FractionText.trace {text : List Char} (h : FractionText text) {phase : NumeralPhase}
    (hphase : phase = .zero ∨ phase = .whole) :
    ∃ phase', (phase' = .zero ∨ phase' = .whole ∨ phase' = .fraction) ∧
      Trace GoesOn phase text phase' := by
  cases h with
  | none => exact ⟨phase, hphase.imp_right .inl, .nil⟩
  | point hdigits =>
    have hpoint : GoesOn phase '.' .point := by
      rcases hphase with rfl | rfl
      · rfl
      · rfl
    exact ⟨.fraction, .inr (.inr rfl), .cons hpoint (trace_digits hdigits rfl rfl)⟩

theorem ExponentText.trace {exponent : Int} {text : List Char} (h : ExponentText exponent text)
    {phase : NumeralPhase} (hphase : phase = .zero ∨ phase = .whole ∨ phase = .fraction) :
    ∃ phase', phase'.isComplete = true ∧ Trace GoesOn phase text phase' := by
  cases h with
  | none =>
    refine ⟨phase, ?_, .nil⟩
    rcases hphase with rfl | rfl | rfl
    · rfl
    · rfl
    · rfl
  | @marked mark _ _ hmark hinteger =>
    have hmarked : GoesOn phase mark .mark := by
      rcases hmark with rfl | rfl <;> rcases hphase with rfl | rfl | rfl <;> rfl
    obtain ⟨hsign, hdigits⟩ := hinteger
    refine ⟨.exponent, rfl, .cons hmarked ?_⟩
    cases hsign with
    | none => exact trace_digits hdigits rfl rfl
    | plus | minus => exact .cons rfl (trace_digits hdigits rfl rfl)

/-- **A numeral is read** up to where it may end. -/
theorem NumeralText.trace {text : List Char} (h : NumeralText text) :
    ∃ c rest phase phase', text = c :: rest ∧ first? c = some phase ∧
      Trace GoesOn phase rest phase' ∧ phase'.isComplete = true := by
  obtain ⟨hsign, hwhole, hfraction, htail⟩ := h
  obtain ⟨c, rest, phase, rfl, hphase, hfirst, hminus, hrest⟩ := hwhole.trace
  obtain ⟨phase', hphase', hfraction⟩ := hfraction.trace hphase
  obtain ⟨phase'', hcomplete, htail⟩ := htail.trace hphase'
  have htrace := hrest.append (hfraction.append htail)
  rcases hsign with rfl | rfl
  · exact ⟨c, _, phase, phase'', rfl, hfirst, htrace, hcomplete⟩
  · exact ⟨'-', _, .minus, phase'', rfl, rfl, .cons hminus htrace, hcomplete⟩

/-- A character that continues no numeral. -/
def EndsNumeral (c : Char) : Prop :=
  c.isDigit = false ∧ c ≠ '.' ∧ c ≠ 'e' ∧ c ≠ 'E'

theorem NumeralPhase.step_eq_ended {phase : NumeralPhase} {c : Char}
    (hcomplete : phase.isComplete = true) (h : EndsNumeral c) : phase.step c = .ended := by
  obtain ⟨hdigit, hpoint, hlower, hupper⟩ := h
  cases phase with
  | minus | point | mark | markSign => cases hcomplete
  | zero | whole | fraction | exponent => simp [step, afterWhole, hdigit, hpoint, hlower, hupper]

end DialogueScript
