/-
# Writing a script anew

A script can be written anew from its lines: each on a line of its own, without blank lines and
white space at the ends, and the action lines that can be parsed as they are rendered
(`canonicalText`).  This moves lines to other numbers and changes their spelling, but not what they
say (`Line.SaysSame`).

It does so because each new line is `Trimmed`: on one line, and with nothing to trim, so that it is
read as it stands (`scriptLines_intercalate`).  Dialogue is trimmed when it is read, and a rendered
line has its delimiters at the ends.  What the usage and the check find in lines that say the same
is the same, up to numbers and spelling, and the canonical text of a canonical text is itself.
-/
import Mathlib.Data.List.Forall2
import DialogueScript.Proofs.ActionLine.Rendering
import DialogueScript.Proofs.Script.Recognition
import DialogueScript.Script.Check
import DialogueScript.Script.Usage

namespace DialogueScript

/-! ### Lines that say the same -/

/-- Two lines say the same if they are of one kind and are parsed into the same, whatever their
numbers and their spelling. -/
structure Line.SaysSame (line line' : Line) : Prop where
  kind_eq : line.kind = line'.kind
  parse?_eq : line.parse? = line'.parse?

/-- What a finding says, apart from where it was made. -/
def Finding.wording (finding : Finding) : Level × String :=
  (finding.level, finding.message)

theorem map_wording_checkAction (known : List String) (action : String) (number number' : Nat)
    (raw raw' : String) :
    (checkAction known number raw action).map Finding.wording
      = (checkAction known number' raw' action).map Finding.wording := by
  simp only [checkAction]
  split
  · rfl
  · split <;> rfl

theorem map_wording_checkParameters (parameters : List String) (number number' : Nat)
    (raw raw' : String) :
    (checkParameters number raw parameters).map Finding.wording
      = (checkParameters number' raw' parameters).map Finding.wording := by
  simp only [checkParameters]
  split
  · rfl
  · rw [List.map_filterMap, List.map_filterMap]
    apply List.filterMap_congr
    rintro ⟨parameter, place⟩ -
    by_cases hempty : parameter = ""
    · simp only [hempty, if_true]
      rfl
    · simp only [hempty, if_false]

theorem Line.SaysSame.map_wording_checkLine {line line' : Line} (h : line.SaysSame line')
    (known : List String) :
    (checkLine known line).map Finding.wording = (checkLine known line').map Finding.wording := by
  rw [checkLine, checkLine, h.parse?_eq]
  rcases line'.parse? with - | e | parsed
  · rfl
  · rfl
  · simp only [Option.elim_some, checkParsed, List.map_append]
    rw [map_wording_checkAction known parsed.action line.number line'.number line.text line'.text,
      map_wording_checkParameters parsed.parameters line.number line'.number line.text line'.text]

theorem Line.SaysSame.action?_eq {line line' : Line} (h : line.SaysSame line') :
    line.action? = line'.action? := by
  rw [Line.action?, Line.action?, h.parse?_eq]

/-- Whatever depends only on what lines say is the same for lines that say the same. -/
theorem map_eq_of_saysSame {α : Type} {f : Line → α} {lines lines' : List Line}
    (h : List.Forall₂ Line.SaysSame lines lines')
    (hf : ∀ line line', line.SaysSame line' → f line = f line') : lines.map f = lines'.map f := by
  induction h with
  | nil => rfl
  | cons hline _ ih => rw [List.map_cons, List.map_cons, hf _ _ hline, ih]

variable {text text' : String}

/-- Scripts whose lines say the same use the same actions equally often. -/
theorem scriptUsage_eq_of_saysSame
    (h : List.Forall₂ Line.SaysSame (scriptLines text) (scriptLines text')) :
    scriptUsage text = scriptUsage text' := by
  have hactions := map_eq_of_saysSame h fun _ _ => Line.SaysSame.action?_eq
  have hlisted := congrArg (List.filterMap id) hactions
  rw [List.filterMap_map, List.filterMap_map, Function.id_comp] at hlisted
  rw [scriptUsage, scriptUsage, hlisted]

/-- Scripts whose lines say the same give rise to the same findings, elsewhere. -/
theorem map_wording_findings_of_saysSame
    (h : List.Forall₂ Line.SaysSame (scriptLines text) (scriptLines text')) (known : List String) :
    (findings known text).map Finding.wording = (findings known text').map Finding.wording := by
  have hkinds := congrArg (List.countP id) (map_eq_of_saysSame h fun line line' hline =>
    show line.isAction = line'.isAction by rw [Line.isAction, Line.isAction, hline.kind_eq])
  rw [List.countP_map, List.countP_map, Function.id_comp] at hkinds
  have hlines := congrArg List.flatten
    (map_eq_of_saysSame h fun _ _ hline => hline.map_wording_checkLine known)
  rw [← List.flatMap_def, ← List.flatMap_def] at hlines
  simp only [findings, List.map_append, List.map_flatMap, hkinds, hlines]

/-- **Scripts whose lines say the same are judged alike**: the reports have the same messages in the
same order, and as many errors and warnings. -/
theorem checkScript_of_saysSame
    (h : List.Forall₂ Line.SaysSame (scriptLines text) (scriptLines text')) (script : String)
    (known : List String) :
    (checkScript script text known).errors = (checkScript script text' known).errors ∧
      (checkScript script text known).warnings = (checkScript script text' known).warnings ∧
      (checkScript script text known).map Diagnostic.message
        = (checkScript script text' known).map Diagnostic.message := by
  have hwording := map_wording_findings_of_saysSame h known
  have hcount : ∀ level, (checkScript script text known).count level
      = (checkScript script text' known).count level := by
    intro level
    have hlevels := congrArg (List.countP fun wording => wording.1 = level) hwording
    rw [List.countP_map, List.countP_map] at hlevels
    rw [Diagnostics.count, Diagnostics.count, checkScript, checkScript, List.countP_map,
      List.countP_map]
    exact hlevels
  refine ⟨hcount .error, hcount .warn, ?_⟩
  have hmessages := congrArg (List.map Prod.snd) hwording
  rw [List.map_map, List.map_map] at hmessages
  rw [checkScript, checkScript, List.map_map, List.map_map]
  exact hmessages

/-! ### Lines that are read as they stand -/

/-- A text that is one line of a script as it stands. -/
structure Trimmed (text : String) : Prop where
  ne_empty : text ≠ ""
  newline_not_mem : '\n' ∉ text.toList
  trim_eq : trim text.toList = text.toList

/-- A trimmed text as the line with some number. -/
def Line.ofTrimmed (number : Nat) (text : String) : Line :=
  ⟨if isDelimited text.toList then .action else .dialogue, number, text⟩

theorem Trimmed.ofSegment?_eq (h : Trimmed text) (number : Nat) :
    Line.ofSegment? number text.toList = some (Line.ofTrimmed number text) := by
  have hne : trim text.toList ≠ [] := by
    rw [h.trim_eq]
    exact mt String.toList_eq_nil_iff.mp h.ne_empty
  exact ofSegment?_eq_some_iff.mpr ⟨hne, rfl, h.trim_eq.symm, by rw [h.trim_eq]; rfl⟩

/-- **Trimmed texts on lines of their own are the lines of a script**, numbered without gaps. -/
theorem scriptLines_intercalate {texts : List String} (h : ∀ text ∈ texts, Trimmed text) :
    scriptLines ("\n".intercalate texts)
      = (texts.zipIdx 1).map fun (text, number) => Line.ofTrimmed number text := by
  by_cases hempty : texts = []
  · subst hempty
    decide
  · have hcut : ("\n".intercalate texts).toList.splitOn '\n' = texts.map String.toList := by
      rw [String.toList_intercalate]
      refine List.splitOn_intercalate '\n' ?_ (mt List.map_eq_nil_iff.mp hempty)
      intro line hline
      obtain ⟨text, htext, rfl⟩ := List.mem_map.mp hline
      exact (h text htext).newline_not_mem
    rw [scriptLines, numberedSegments, hcut, List.zipIdx_map, List.filterMap_map,
      ← List.filterMap_eq_map]
    apply List.filterMap_congr
    rintro ⟨text, number⟩ hmem
    have htext : text ∈ texts := List.fst_mem_of_mem_zipIdx hmem
    exact (h text htext).ofSegment?_eq number

/-- A text with both delimiters at its ends has nothing to trim. -/
theorem trimmed_of_ends (hhead : text.toList.head? = some '<')
    (hlast : text.toList.getLast? = some '>') (hnewline : '\n' ∉ text.toList) : Trimmed text where
  ne_empty := by
    rintro rfl
    cases hhead
  newline_not_mem := hnewline
  trim_eq := by
    apply trim_eq_self
    · intro c hc
      obtain rfl : '<' = c := Option.some.inj (hhead.symm.trans hc)
      rfl
    · intro c hc
      obtain rfl : '>' = c := Option.some.inj (hlast.symm.trans hc)
      rfl

/-- The lines of a script are trimmed, and are what their trimmed texts are as lines. -/
theorem trimmed_of_mem {line : Line} (h : line ∈ scriptLines text) :
    Trimmed line.text ∧ line = Line.ofTrimmed line.number line.text := by
  obtain ⟨segment, ⟨before, after, -, hnewline, -⟩, hread⟩ := mem_scriptLines.mp h
  have hrecognized := recognized_of_ofSegment? hnewline hread
  obtain ⟨-, -, htext, hkind⟩ := ofSegment?_eq_some_iff.mp hread
  have htrim : trim line.text.toList = line.text.toList := by
    rw [htext]
    exact trim_eq_self (head?_trim segment) (getLast?_trim segment)
  refine ⟨⟨hrecognized.text_ne_empty, hrecognized.newline_not_mem, htrim⟩, ?_⟩
  rw [Line.ofTrimmed, htext, ← hkind]

/-! ### Canonical texts -/

/-- A line as it is written anew: as it is rendered, if it is an action line that can be parsed, and
as it stands otherwise. -/
def Line.canonical (line : Line) : String :=
  match line.parse? with
  | some (.ok parsed) => parsed.render
  | _ => line.text

/-- A script written anew. -/
def canonicalText (text : String) : String :=
  "\n".intercalate ((scriptLines text).map Line.canonical)

theorem ends_render (parsed : ActionLine) :
    parsed.render.toList.head? = some '<' ∧ parsed.render.toList.getLast? = some '>' := by
  rw [ActionLine.toList_render, ← List.cons_append]
  exact ⟨rfl, List.getLast?_concat⟩

/-- A rendered line is an action line, whatever its delimiters were. -/
theorem ofTrimmed_render (number : Nat) (parsed : ActionLine) :
    Line.ofTrimmed number parsed.render = ⟨.action, number, parsed.render⟩ := by
  rw [Line.ofTrimmed, if_pos (isDelimited_iff.mpr (ends_render parsed))]

/-- A rendered line stays on one line if the line that it was parsed from did. -/
theorem trimmed_render {raw : String} {parsed : ActionLine}
    (hparse : ActionLine.parse raw = .ok parsed) (hraw : '\n' ∉ raw.toList) :
    Trimmed parsed.render := by
  have hrendered : '\n' ∉ ActionLine.rendered parsed.action parsed.parameters := fun hmem =>
    hraw (ActionLine.inside_subset raw
      ((ActionLine.decomposes_of_parse hparse).rendered_subset hmem))
  obtain ⟨hhead, hlast⟩ := ends_render parsed
  apply trimmed_of_ends hhead hlast
  simp [ActionLine.toList_render, hrendered]

/-- What a line is written anew as is trimmed, and as a line of any number it says the same. -/
theorem canonical_of_mem {line : Line} (h : line ∈ scriptLines text) (number : Nat) :
    Trimmed line.canonical ∧ (Line.ofTrimmed number line.canonical).SaysSame line := by
  obtain ⟨htrimmed, hline⟩ := trimmed_of_mem h
  have hstands : (Line.ofTrimmed number line.text).SaysSame line := by
    rw [hline]
    exact ⟨rfl, rfl⟩
  obtain ⟨kind, number', raw⟩ := line
  -- only an action line that can be parsed is not written as it stands
  cases kind with
  | dialogue => exact ⟨htrimmed, hstands⟩
  | action =>
    rcases hparse : ActionLine.parse raw with e | parsed
    · have hcanonical : Line.canonical ⟨.action, number', raw⟩ = raw := by
        simp only [Line.canonical, Line.parse?, hparse]
      rw [hcanonical]
      exact ⟨htrimmed, hstands⟩
    · have hcanonical : Line.canonical ⟨.action, number', raw⟩ = parsed.render := by
        simp only [Line.canonical, Line.parse?, hparse]
      rw [hcanonical, ofTrimmed_render]
      refine ⟨trimmed_render hparse htrimmed.newline_not_mem, rfl, ?_⟩
      exact congrArg some ((ActionLine.parse_render_of_parse hparse).trans hparse.symm)

/-- The lines of a canonical text are those of the text, written anew and numbered without gaps. -/
theorem scriptLines_canonicalText (text : String) :
    scriptLines (canonicalText text)
      = ((scriptLines text).zipIdx 1).map fun (line, number) =>
          Line.ofTrimmed number line.canonical := by
  have htrimmed : ∀ line ∈ (scriptLines text).map Line.canonical, Trimmed line := by
    intro canonical hcanonical
    obtain ⟨line, hline, rfl⟩ := List.mem_map.mp hcanonical
    exact (canonical_of_mem hline 1).1
  rw [canonicalText, scriptLines_intercalate htrimmed, List.zipIdx_map, List.map_map]
  rfl

theorem getElem?_scriptLines_canonicalText (text : String) (i : Nat) :
    (scriptLines (canonicalText text))[i]?
      = ((scriptLines text)[i]?).map fun line => Line.ofTrimmed (i + 1) line.canonical := by
  rw [scriptLines_canonicalText, List.getElem?_map, List.getElem?_zipIdx, Option.map_map,
    Nat.add_comm]
  rfl

theorem length_scriptLines_canonicalText (text : String) :
    (scriptLines (canonicalText text)).length = (scriptLines text).length := by
  rw [scriptLines_canonicalText, List.length_map, List.length_zipIdx]

/-- The lines of a canonical text say the same as those of the text. -/
theorem saysSame_scriptLines_canonicalText (text : String) :
    List.Forall₂ Line.SaysSame (scriptLines (canonicalText text)) (scriptLines text) := by
  have hlines : ∀ (lines : List Line) (start : Nat), (∀ line ∈ lines, line ∈ scriptLines text) →
      List.Forall₂ Line.SaysSame
        ((lines.zipIdx start).map fun (line, number) => Line.ofTrimmed number line.canonical)
        lines := by
    intro lines
    induction lines with
    | nil => exact fun _ _ => .nil
    | cons line lines ih =>
      intro start hmem
      refine .cons (canonical_of_mem (hmem line List.mem_cons_self) start).2 (ih (start + 1) ?_)
      exact fun other hother => hmem other (List.mem_cons_of_mem _ hother)
  rw [scriptLines_canonicalText]
  exact hlines (scriptLines text) 1 fun _ hmem => hmem

/-- A line that is written anew is not changed by writing it anew once more. -/
theorem canonical_ofTrimmed_canonical {line : Line} (h : line ∈ scriptLines text) (number : Nat) :
    (Line.ofTrimmed number line.canonical).canonical = line.canonical := by
  have hsame := (canonical_of_mem h number).2.parse?_eq
  show (match (Line.ofTrimmed number line.canonical).parse? with
    | some (.ok parsed) => parsed.render
    | _ => line.canonical) = line.canonical
  rw [hsame]
  rcases hparse : line.parse? with - | e | parsed
  · rfl
  · rfl
  · show parsed.render = line.canonical
    rw [Line.canonical, hparse]

/-- **A canonical text is not changed** by writing it anew. -/
theorem canonicalText_canonicalText (text : String) :
    canonicalText (canonicalText text) = canonicalText text := by
  have hlines : (scriptLines (canonicalText text)).map Line.canonical
      = (scriptLines text).map Line.canonical := by
    calc (scriptLines (canonicalText text)).map Line.canonical
        = ((scriptLines text).zipIdx 1).map (Line.canonical ∘ Prod.fst) := by
          rw [scriptLines_canonicalText, List.map_map]
          apply List.map_congr_left
          rintro ⟨line, number⟩ hmem
          exact canonical_ofTrimmed_canonical (List.fst_mem_of_mem_zipIdx hmem) number
      _ = (scriptLines text).map Line.canonical := by
          rw [← List.map_map, List.zipIdx_map_fst]
  rw [canonicalText, hlines, canonicalText]

/-- A malformed line stands as it is, and an empty section is left out only if nothing is listed. -/
example :
    canonicalText "\n <a:>\r\n<a:b:> \n\n b: \n<a:,>" = "<a>\n<a:b:>\nb:\n<a:,>" ∧
      canonicalText "<a>\n<a:b:>\nb:\n<a:,>" = "<a>\n<a:b:>\nb:\n<a:,>" := by decide +kernel

/-- **A script survives being written anew.**  It keeps the number of its lines, and the line with
the index `i` gets the number `i + 1` and keeps its kind and what it is parsed into.  So the usage
is the same, and the report has the same messages in the same order, with as many errors and
warnings; and writing the script anew once more changes nothing. -/
theorem canonicalText_preserves (text : String) :
    (scriptLines (canonicalText text)).length = (scriptLines text).length ∧
    (∀ i line, (scriptLines text)[i]? = some line →
      ∃ line', (scriptLines (canonicalText text))[i]? = some line' ∧ line'.number = i + 1 ∧
        line'.kind = line.kind ∧ line'.parse? = line.parse?) ∧
    scriptUsage (canonicalText text) = scriptUsage text ∧
    (∀ script known,
      (checkScript script (canonicalText text) known).errors
        = (checkScript script text known).errors ∧
      (checkScript script (canonicalText text) known).warnings
        = (checkScript script text known).warnings ∧
      (checkScript script (canonicalText text) known).map Diagnostic.message
        = (checkScript script text known).map Diagnostic.message) ∧
    canonicalText (canonicalText text) = canonicalText text := by
  have hsame := saysSame_scriptLines_canonicalText text
  refine ⟨length_scriptLines_canonicalText text, ?_, scriptUsage_eq_of_saysSame hsame, ?_,
    canonicalText_canonicalText text⟩
  · intro i line hline
    obtain ⟨-, hkind, hparse⟩ := canonical_of_mem (List.mem_of_getElem? hline) (i + 1)
    refine ⟨Line.ofTrimmed (i + 1) line.canonical, ?_, rfl, hkind, hparse⟩
    rw [getElem?_scriptLines_canonicalText, hline, Option.map_some]
  · intro script known
    exact checkScript_of_saysSame hsame script known

end DialogueScript
