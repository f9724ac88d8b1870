/-
# Spellings of a configuration

A configuration can be written in many ways: any of its fields, in any order, among members that are
nobody's, with escapes in its strings and white space around everything.  However that is done, the
text is loaded as the configuration with the fields that are written, and defaults for the others
(`Configuration.load_of_spelling`).

What has been read of a configuration depends on the fields that were read, and not on their order
(`Draft.of`).  So reading the value of a field adds the field (`FieldText.leads`), reading a member
adds its field if it has one (`EntryText.reads`), and an object or an array, which is a list of
those, adds them all.  A field that is there already is refused at the end of its key, whatever
comes then.
-/
import DialogueScript.Configuration.Load
import DialogueScript.Proofs.Configuration.Skipping
import DialogueScript.Proofs.Json.Printing

namespace DialogueScript

/-! ### Some fields of a configuration -/

/-- The texts that a configuration lists in a field. -/
def Configuration.listOf (config : Configuration) : ListField → List String
  | .extensions => config.extensions
  | .knownActions => config.knownActions

/-- The configuration that takes some fields from another one, and has defaults for the others. -/
def Configuration.only (config : Configuration) (fields : List Field) : Configuration where
  scriptsDir := if .scriptsDir ∈ fields then config.scriptsDir else standard.scriptsDir
  extensions := if .list .extensions ∈ fields then config.extensions else standard.extensions
  knownActions :=
    if .list .knownActions ∈ fields then config.knownActions else standard.knownActions
  warningsAsErrors :=
    if .warningsAsErrors ∈ fields then config.warningsAsErrors else standard.warningsAsErrors

namespace Draft

/-- What is known of a configuration when some of its fields have been read. -/
def of (config : Configuration) (fields : List Field) : Draft where
  scriptsDir := if .scriptsDir ∈ fields then some config.scriptsDir else none
  extensions := if .list .extensions ∈ fields then some config.extensions else none
  knownActions := if .list .knownActions ∈ fields then some config.knownActions else none
  warningsAsErrors := if .warningsAsErrors ∈ fields then some config.warningsAsErrors else none

variable (config : Configuration) (fields : List Field)

theorem complete_of : (of config fields).complete = config.only fields := by
  simp only [complete, of, Configuration.only]
  congr 1 <;> split <;> rfl

theorem has_of (field : Field) : (of config fields).has field = decide (field ∈ fields) := by
  rcases field with - | ⟨- | -⟩ | - <;> simp only [has, of] <;> split <;> simp [*]

/-! Reading one field more. -/

theorem of_concat_scriptsDir :
    { of config fields with scriptsDir := some config.scriptsDir }
      = of config (fields ++ [.scriptsDir]) := by
  simp [of]

theorem of_concat_list (field : ListField) :
    (of config fields).setList field (config.listOf field)
      = of config (fields ++ [.list field]) := by
  cases field <;> simp [of, setList, Configuration.listOf]

theorem of_concat_warningsAsErrors :
    { of config fields with warningsAsErrors := some config.warningsAsErrors }
      = of config (fields ++ [.warningsAsErrors]) := by
  simp [of]

end Draft

/-! ### Texts -/

/-- How the value of a field can be written. -/
inductive FieldText (config : Configuration) : Field → List Char → Prop
  | scriptsDir {text} : QuotedText config.scriptsDir text → FieldText config .scriptsDir text
  | list {field text} : Separated QuotedText (config.listOf field) text →
      FieldText config (.list field) ('[' :: (text ++ [']']))
  | strict : config.warningsAsErrors = true →
      FieldText config .warningsAsErrors ['t', 'r', 'u', 'e']
  | lenient : config.warningsAsErrors = false →
      FieldText config .warningsAsErrors ['f', 'a', 'l', 's', 'e']

/-- How a member of the object can be written: a field with its key, or any value under another
key. -/
inductive EntryText (config : Configuration) : Option Field → List Char → Prop
  | field {field text} : KeyedText (QuotedText field.key) (FieldText config field) text →
      EntryText config (some field) text
  | foreign {name text} : (∀ field : Field, field.key ≠ name) →
      KeyedText (QuotedText name) ValueText text → EntryText config none text

/-- The fields among the members of an object. -/
def written (entries : List (Option Field)) : List Field :=
  entries.filterMap id

/-- An object with the given members, and white space around it. -/
inductive ObjectText (config : Configuration) (entries : List (Option Field)) : List Char → Prop
  | intro {before body after} : AreBlanks before → Separated (EntryText config) entries body →
      AreBlanks after →
      ObjectText config entries (before ++ '\x7b' :: (body ++ '\x7d' :: after))

/-- An array of the values of the given fields, and white space around it. -/
inductive ArrayText (config : Configuration) (fields : List Field) : List Char → Prop
  | intro {before body after} : AreBlanks before → Separated (FieldText config) fields body →
      AreBlanks after → ArrayText config fields (before ++ '[' :: (body ++ ']' :: after))

/-- An object up to the first key that is a field's for the second time; anything may follow. -/
inductive RepeatsField (config : Configuration) : List Char → Prop
  | intro {before body blanks key rest entries field} : AreBlanks before →
      Separated (EntryText config) entries body → (written entries).Nodup →
      field ∈ written entries → AreBlanks blanks → QuotedText field.key key →
      RepeatsField config (before ++ '\x7b' :: (body ++ ',' :: (blanks ++ (key ++ rest))))

/-- An array that goes on behind the values of all fields; anything may follow the comma. -/
inductive ExceedsFields (config : Configuration) : List Char → Prop
  | intro {before body rest} : AreBlanks before → Separated (FieldText config) Field.all body →
      ExceedsFields config (before ++ '[' :: (body ++ ',' :: rest))

/-! ### Keys -/

theorem Field.ofKey?_key (field : Field) : ofKey? field.key = some field := by
  rcases field with - | ⟨- | -⟩ | - <;> rfl

theorem Field.ofKey?_of_ne {name : String} (h : ∀ field : Field, field.key ≠ name) :
    ofKey? name = none :=
  List.find?_eq_none.mpr fun field _ => by simpa using h field

theorem written_concat_field (done : List (Option Field)) (field : Field) :
    written (done ++ [some field]) = written done ++ [field] :=
  List.filterMap_append

theorem written_concat_foreign (done : List (Option Field)) :
    written (done ++ [none]) = written done := by
  simp [written]

/-- Where no field comes twice, the next one has not come before. -/
theorem not_mem_written {done later : List (Option Field)} {field : Field}
    (h : (written (done ++ some field :: later)).Nodup) : field ∉ written done := by
  have hsplit : written (done ++ some field :: later) = written done ++ field :: written later :=
    List.filterMap_append
  rw [hsplit] at h
  exact fun hmem => (List.nodup_append.mp h).2.2 _ hmem _ List.mem_cons_self rfl

namespace ConfigurationScan

variable {config : Configuration} {fields : List Field} {scan scan' : ConfigurationScan}
  {text : List Char}

/-! ### Values of fields -/

theorem quotedReading_item (slot : Slot) (field : ListField) (items : List String)
    (afterComma : Bool) :
    QuotedReading .paired (beforeItem slot field items afterComma) (item slot field items)
      (fun s => .ok (.afterItem slot field (s :: items))) := by
  refine ⟨rfl, fun quoted c => ?_⟩
  rcases hstep : quoted.step .paired c with fault | (quoted' | s)
  all_goals simp only [step, hstep, within]

/-- The texts of a list are read, and then kept. -/
theorem leads_list {slot : Slot} {field : ListField} {texts : List String}
    (h : Separated QuotedText texts text) :
    (beforeItem slot field [] false).Leads (text ++ [']'])
      (.afterValue { slot with draft := slot.draft.setList field texts }) := by
  -- the texts are kept with the last one first
  have hlist : ListReading QuotedText texts (fun done => beforeItem slot field done.reverse)
      (fun done => afterItem slot field done.reverse) := by
    refine ⟨fun _ _ => passesBlanks rfl, fun _ => passesBlanks rfl, fun _ _ _ _ _ => rfl, ?_⟩
    intro done next later afterComma text _ htext
    apply Leads.reads
    rw [List.reverse_append, List.reverse_singleton, List.singleton_append]
    exact (quotedReading_item slot field done.reverse afterComma).leads htext rfl
  refine hlist.leads_closed h (.inr (.inr (.inl rfl))) ?_ fun _ => ?_
  · rintro rfl
    rfl
  · show Except.ok (afterValue { slot with
      draft := slot.draft.setList field texts.reverse.reverse }) = _
    rw [List.reverse_reverse]

theorem quotedReading_text (slot : Slot) (hopen : scan.step '"' = .ok (.text slot .start)) :
    QuotedReading .paired scan (.text slot) fun s =>
      .ok (.afterValue { slot with draft := { slot.draft with scriptsDir := some s } }) := by
  refine ⟨hopen, fun quoted c => ?_⟩
  rcases hstep : quoted.step .paired c with fault | (quoted' | s)
  all_goals simp only [step, hstep, within]

/-- **The value of a field is read**, wherever it is expected, and adds the field to what is known.
At every place its first character decides how it goes on. -/
theorem leads_field {place : Place} {field : Field} (h : FieldText config field text)
    (hfirst : ∀ c, isJsonBlank c = false → c ≠ ']' →
      scan.step c = beginValue ⟨place, .of config fields⟩ field c) :
    scan.Leads text (.afterValue ⟨place, .of config (fields ++ [field])⟩) := by
  cases h with
  | scriptsDir hquoted =>
    rw [← Draft.of_concat_scriptsDir]
    have hreading := quotedReading_text ⟨place, .of config fields⟩ (hfirst '"' rfl (by decide))
    exact hreading.leads hquoted rfl
  | list hlist =>
    rw [← Draft.of_concat_list]
    exact .cons (hfirst '[' rfl (by decide)) (leads_list hlist)
  | strict hstrict =>
    rw [← Draft.of_concat_warningsAsErrors, hstrict]
    exact .cons (hfirst 't' rfl (by decide)) fun _ => rfl
  | lenient hlenient =>
    rw [← Draft.of_concat_warningsAsErrors, hlenient]
    exact .cons (hfirst 'f' rfl (by decide)) fun _ => rfl

/-! ### Members of the object -/

/-- A key is read, and decides what comes next. -/
theorem quotedReading_key (draft : Draft) (afterComma : Bool) :
    QuotedReading .paired (beforeKey draft afterComma) (.key draft) (afterKey draft) := by
  refine ⟨rfl, fun quoted c => ?_⟩
  rcases hstep : quoted.step .paired c with fault | (quoted' | s)
  all_goals simp only [step, hstep, within]

/-- **A member of the object is read**, and adds its field, if it has one, to what is known. -/
theorem reads_entry {done later : List (Option Field)} {entry : Option Field}
    (h : EntryText config entry text) (hnodup : (written (done ++ entry :: later)).Nodup)
    (afterComma : Bool) :
    (beforeKey (.of config (written done)) afterComma).Reads text
      (.afterValue ⟨.member, .of config (written (done ++ [entry]))⟩) := by
  have hreading := quotedReading_key (.of config (written done)) afterComma
  cases h with
  | @field field _ hkeyed =>
    obtain ⟨hkey, hafter, hbefore, hvalue⟩ := hkeyed
    -- the field has not come before, so it is not refused
    have hnew : afterKey (.of config (written done)) field.key
        = .ok (.beforeColon (.of config (written done)) (some field)) := by
      rw [afterKey, Field.ofKey?_key]
      simp only [Draft.has_of, not_mem_written hnodup, decide_false, Bool.false_eq_true, if_false]
    have hcolon : (beforeColon (.of config (written done)) (some field)).step ':'
        = .ok (.beforeValue (.of config (written done)) field) := rfl
    rw [written_concat_field]
    refine (hreading.leads hkey hnew).append_reads (reads_colon (passesBlanks rfl) hcolon
      (passesBlanks rfl) hafter hbefore (leads_field hvalue fun c hblank _ => ?_).reads)
    simp only [step, hblank, Bool.false_eq_true, if_false]
  | @foreign name _ hforeign hkeyed =>
    -- a key that is nobody's: the value is skipped, and nothing more is known
    obtain ⟨hkey, hafter, hbefore, hvalue⟩ := hkeyed
    have hother : afterKey (.of config (written done)) name
        = .ok (.beforeColon (.of config (written done)) none) := by
      rw [afterKey, Field.ofKey?_of_ne hforeign]
    have hcolon : (beforeColon (.of config (written done)) none).step ':'
        = .ok (.skipping (.of config (written done)) .start) := rfl
    have hpasses : (skipping (.of config (written done)) .start).PassesBlanks :=
      fun c hc => step_skipping_of_more (by simp [Skip.step, Skip.start, hc])
    rw [written_concat_foreign]
    exact (hreading.leads hkey hother).append_reads (reads_colon (passesBlanks rfl) hcolon hpasses
      hafter hbefore (hvalue.isSkipped.reads _ []))

/-- The members of an object are a list. -/
theorem listReading_object {entries : List (Option Field)} (hnodup : (written entries).Nodup) :
    ListReading (EntryText config) entries (fun done => beforeKey (.of config (written done)))
      (fun done => afterValue ⟨.member, .of config (written done)⟩) where
  passesBefore _ _ := passesBlanks rfl
  passesBehind _ := passesBlanks rfl
  comma _ _ _ _ _ := rfl
  member _ _ _ afterComma _ htotal htext := reads_entry htext (htotal ▸ hnodup) afterComma

/-! ### Elements of the array -/

/-- Before an element, behind those for some fields. -/
def beforeElements (config : Configuration) (done : List Field) (afterComma : Bool) :
    ConfigurationScan :=
  match Field.all.drop done.length with
  | [] => .closed (.of config done)
  | field :: later => .beforeElement (.of config done) field later afterComma

/-- Behind the elements for some fields. -/
def afterElements (config : Configuration) (done : List Field) : ConfigurationScan :=
  .afterValue ⟨.element (Field.all.drop done.length), .of config done⟩

/-- The fields that are left behind the first ones. -/
theorem drop_all {n : Nat} {done later : List Field} {next : Field}
    (h : Field.all.take n = done ++ next :: later) :
    Field.all.drop done.length = next :: Field.all.drop (done ++ [next]).length := by
  have hall : Field.all = done ++ (next :: (later ++ Field.all.drop n)) := by
    rw [← List.cons_append, ← List.append_assoc, ← h, List.take_append_drop]
  have hrest := congrArg (List.drop done.length) hall
  rw [List.drop_left] at hrest
  rw [List.length_append, ← List.drop_drop, hrest, List.length_singleton, List.drop_one,
    List.tail_cons]

theorem listReading_array (n : Nat) :
    ListReading (FieldText config) (Field.all.take n) (beforeElements config)
      (afterElements config) where
  passesBefore done afterComma := by
    unfold beforeElements
    split
    · exact passesBlanks rfl
    · exact passesBlanks rfl
  passesBehind _ := passesBlanks rfl
  comma done next later htotal _ := by
    rw [afterElements, beforeElements, drop_all htotal]
    rfl
  member done next later afterComma text htotal htext := by
    rw [afterElements, beforeElements, drop_all htotal]
    refine (leads_field htext fun c hblank hne => ?_).reads
    simp only [step, hblank, hne, Bool.false_eq_true, if_false]

/-! ### Whole texts -/

variable {before after body : List Char} {entries : List (Option Field)} {c : Char}

/-- A bracket opens the list of the whole text, of which nothing is read yet. -/
theorem leads_opening (hbefore : AreBlanks before) (h : opening.step c = .ok scan) :
    opening.Leads (before ++ [c]) scan :=
  ((passesBlanks rfl).leads hbefore).append (leads_single h)

/-- A list between brackets is read, with white space around it. -/
theorem leads_bracketed {α : Type} {P : α → List Char → Prop} {total : List α}
    {beforeMember : List α → Bool → ConfigurationScan} {behindMember : List α → ConfigurationScan}
    {first last : Char} {draft : Draft} (hlist : ListReading P total beforeMember behindMember)
    (hbefore : AreBlanks before) (hbody : Separated P total body) (hafter : AreBlanks after)
    (hopen : opening.step first = .ok (beforeMember [] false)) (hlast : EndsValue last)
    (hempty : total = [] → (beforeMember [] false).step last = .ok (.closed draft))
    (hclose : total ≠ [] → (behindMember total).step last = .ok (.closed draft)) :
    opening.Leads (before ++ first :: (body ++ last :: after)) (.closed draft) := by
  have hmembers := hlist.leads_closed hbody hlast hempty hclose
  rw [List.append_cons before, List.append_cons body]
  exact (leads_opening hbefore hopen).append
    (hmembers.append ((passesBlanks rfl).leads hafter))

/-- **An object is read**, up to what is known from its members. -/
theorem leads_object (h : ObjectText config entries text) (hnodup : (written entries).Nodup) :
    opening.Leads text (.closed (.of config (written entries))) := by
  obtain ⟨hbefore, hbody, hafter⟩ := h
  refine leads_bracketed (listReading_object hnodup) hbefore hbody hafter rfl
    (.inr (.inr (.inr rfl))) ?_ fun _ => rfl
  rintro rfl
  rfl

/-- Behind every element an array may end. -/
theorem step_afterElements (config : Configuration) (done : List Field) :
    (afterElements config done).step ']' = .ok (.closed (.of config done)) := by
  rw [afterElements]
  cases Field.all.drop done.length with
  | nil => rfl
  | cons => rfl

/-- **An array is read**, up to what is known from its elements. -/
theorem leads_array {n : Nat} (h : ArrayText config (Field.all.take n) text) :
    opening.Leads text (.closed (.of config (Field.all.take n))) := by
  obtain ⟨hbefore, hbody, hafter⟩ := h
  refine leads_bracketed (listReading_array n) hbefore hbody hafter rfl
    (.inr (.inr (.inl rfl))) ?_ fun _ => step_afterElements config _
  intro hnil
  rw [hnil]
  rfl

/-- **A field that is given again is refused** with its key. -/
theorem run_repeatsField (h : RepeatsField config text) :
    run text .opening = .error .mismatched := by
  obtain @⟨before, body, blanks, key, rest, entries, field, hbefore, hbody, hnodup, hfield,
    hblanks, hkey⟩ := h
  have hne : entries ≠ [] := by
    rintro rfl
    cases hfield
  have hopen : opening.Leads (before ++ ['\x7b']) (.beforeKey (.of config (written [])) false) :=
    leads_opening hbefore rfl
  have hmembers := (listReading_object hnodup).reads hbody (List.nil_append _).symm hne false
  have hcomma : (afterValue ⟨.member, .of config (written entries)⟩).step ','
      = .ok (.beforeKey (.of config (written entries)) true) := rfl
  have hknown : afterKey (.of config (written entries)) field.key = .error .mismatched := by
    rw [afterKey, Field.ofKey?_key]
    simp only [Draft.has_of, hfield, decide_true, if_true]
  rw [List.append_cons before, hopen, hmembers ',' _ (.inr (.inl rfl)), run_cons hcomma,
    (passesBlanks rfl).leads hblanks, (quotedReading_key _ true).run_quoted hkey, hknown]
  rfl

/-- **A fifth element is refused** with the comma before it. -/
theorem run_exceedsFields (h : ExceedsFields config text) :
    run text .opening = .error .malformed := by
  obtain @⟨before, body, rest, hbefore, hbody⟩ := h
  have hopen : opening.Leads (before ++ ['[']) (beforeElements config [] false) :=
    leads_opening hbefore rfl
  have helements := (listReading_array Field.all.length).reads hbody (List.nil_append _).symm
    (List.cons_ne_nil _ _) false
  rw [List.append_cons before, hopen, helements ',' _ (.inr (.inl rfl))]
  rfl

end ConfigurationScan

/-! ### Loading -/

namespace Configuration

variable {fs : FileSystem} {path text : String}

/-- A file with a text is loaded as what its text says. -/
theorem load_of_readText (hread : fs.readText path = .ok text) :
    load fs path = (ofText text).mapError (.unparsable path) := by
  have hexists : fs.pathExists path = true := by
    rw [FileSystem.pathExists]
    rw [FileSystem.readText] at hread
    cases hresolve : fs.resolve path with
    | ok => rfl
    | error failure => simp [hresolve] at hread
  rw [load, if_neg (by simp [hexists]), hread]
  cases htext : ofText text with
  | ok => simp only [htext, Except.mapError]
  | error => simp only [htext, Except.mapError]

theorem ofText_of_leads {draft : Draft}
    (h : ConfigurationScan.opening.Leads text.toList (.closed draft)) :
    ofText text = .ok draft.complete := by
  rw [ofText, ← List.append_nil text.toList, h]
  rfl

theorem ofText_of_run_eq_error {fault : JsonFault}
    (h : ConfigurationScan.run text.toList .opening = .error fault) :
    ofText text = .error fault := by
  rw [ofText, h]
  rfl

/-- **However a configuration is spelled, it is loaded.**  An object of some of its fields, in any
order and among any members under other keys, is loaded as the configuration with those fields and
defaults for the others.  A field that is given a second time is refused, wherever that is and
whatever follows.  An array of the first fields is loaded like the object with those fields, and one
with more elements than fields is refused. -/
theorem load_of_spelling (config : Configuration) (hread : fs.readText path = .ok text) :
    (∀ entries, ObjectText config entries text.toList → (written entries).Nodup →
      load fs path = .ok (config.only (written entries))) ∧
    (RepeatsField config text.toList → load fs path = .error (.unparsable path .mismatched)) ∧
    (∀ n, ArrayText config (Field.all.take n) text.toList →
      load fs path = .ok (config.only (Field.all.take n))) ∧
    (ExceedsFields config text.toList → load fs path = .error (.unparsable path .malformed)) := by
  rw [load_of_readText hread]
  refine ⟨fun entries hobject hnodup => ?_, fun hrepeats => ?_, fun n harray => ?_,
    fun hexceeds => ?_⟩
  · rw [ofText_of_leads (ConfigurationScan.leads_object hobject hnodup), Draft.complete_of]
    rfl
  · rw [ofText_of_run_eq_error (ConfigurationScan.run_repeatsField hrepeats)]
    rfl
  · rw [ofText_of_leads (ConfigurationScan.leads_array harray), Draft.complete_of]
    rfl
  · rw [ofText_of_run_eq_error (ConfigurationScan.run_exceedsFields hexceeds)]
    rfl

/-- Four files: an object with a member that is nobody's, one with a field twice, an array of two
fields, and one that goes on behind all of them. -/
def treeOfSpellings : FileSystem :=
  ⟨.directory [
    ("object", .file
      "\x7b\"x\":[-0.5e+3,\x7b\x7d],\"extensions\" :[\"\\u0061\"]\x7d".toUTF8),
    ("twice", .file "\x7b\"extensions\":[\"a\"], \"extensions\":0".toUTF8),
    ("array", .file "[\"d\",[\"a\"]]\n".toUTF8),
    ("longer", .file "[\"d\",[\"a\"],[],true,".toUTF8)], []⟩

/-- The law at each of these files, with an escape, white space and a nested value. -/
theorem load_of_spelling_of_tree :
    load treeOfSpellings "object" = .ok ⟨"assets/scripts", ["a"], [], false⟩ ∧
      load treeOfSpellings "twice" = .error (.unparsable "twice" .mismatched) ∧
      load treeOfSpellings "array" = .ok ⟨"d", ["a"], [], false⟩ ∧
      load treeOfSpellings "longer" = .error (.unparsable "longer" .malformed) := by
  let config : Configuration := ⟨"d", ["a"], [], true⟩
  have hnone := areBlanks_nil
  have hspace : AreBlanks [' '] := by simp [AreBlanks, isJsonBlank]
  have hline : AreBlanks ['\n'] := by simp [AreBlanks, isJsonBlank]
  have hkey := Json.quotedText_quote "extensions"
  have hdir : FieldText config .scriptsDir _ := .scriptsDir (Json.quotedText_quote "d")
  have hlist : FieldText config (.list .extensions) _ :=
    .list (.single hnone (Json.quotedText_quote "a") hnone)
  have hentry : EntryText config (some (.list .extensions)) _ :=
    .field (.intro hkey hnone hnone hlist)
  refine ⟨?_, ?_, ?_, ?_⟩
  -- the object, with a numeral and an object in the member that is skipped
  · have hfive : IsDigits ['5'] := ⟨by decide, by simp [AreDigits]⟩
    have hthree : IsDigits ['3'] := ⟨by decide, by simp [AreDigits]⟩
    have hnumeral := NumeralText.intro (.inr rfl) (naturalText_renderNatural 0) (.point hfive)
      (.marked (.inl rfl) (.intro .plus hthree))
    have hitems : Separated (fun _ => ValueText) [(), ()] _ :=
      .cons hnone (.numeral hnumeral) hnone
        (.single hnone (@ValueText.object [] _ (.nil hnone)) hnone)
    have hother : ∀ field : Field, field.key ≠ "x" := by
      rintro (- | (- | -) | -) <;> decide
    have hforeign : EntryText config none _ :=
      .foreign hother (.intro (Json.quotedText_quote "x") hnone hnone (.array hitems))
    have hletter : HexText 'a'.toNat ['0', '0', '6', '1'] := ⟨rfl, rfl⟩
    have hescaped : QuotedText "a" _ := .intro (.cons (.unit hletter) .nil)
    have hfield : EntryText config (some (.list .extensions)) _ :=
      .field (.intro hkey hspace hnone (.list (.single hnone hescaped hnone)))
    have hobject := ObjectText.intro hnone (.cons hnone hforeign hnone (.single hnone hfield hnone))
      hnone
    have hread : treeOfSpellings.readText "object" = .ok
      "\x7b\"x\":[-0.5e+3,\x7b\x7d],\"extensions\" :[\"\\u0061\"]\x7d" := by decide +kernel
    exact (load_of_spelling config hread).1 _ (cast (congrArg _ (by decide +kernel)) hobject)
      (by decide)
  · have hrepeats := @RepeatsField.intro config _ _ _ _ [':', '0'] _ _ hnone
      (.single hnone hentry hnone) (by decide) List.mem_cons_self hspace hkey
    have hread : treeOfSpellings.readText "twice" = .ok
      "\x7b\"extensions\":[\"a\"], \"extensions\":0" := by decide +kernel
    exact (load_of_spelling config hread).2.1 (cast (congrArg _ (by decide +kernel)) hrepeats)
  · have harray : ArrayText config (Field.all.take 2) _ :=
      .intro hnone (.cons hnone hdir hnone (.single hnone hlist hnone)) hline
    have hread : treeOfSpellings.readText "array" = .ok "[\"d\",[\"a\"]]\n" := by decide +kernel
    exact (load_of_spelling config hread).2.2.1 2 (cast (congrArg _ (by decide +kernel)) harray)
  · have hnames : FieldText config (.list .knownActions) _ := .list (.nil hnone)
    have hexceeds := @ExceedsFields.intro config _ _ [] hnone (.cons hnone hdir hnone
      (.cons hnone hlist hnone (.cons hnone hnames hnone (.single hnone (.strict rfl) hnone))))
    have hread : treeOfSpellings.readText "longer" = .ok "[\"d\",[\"a\"],[],true," := by
      decide +kernel
    exact (load_of_spelling config hread).2.2.2 (cast (congrArg _ (by decide +kernel)) hexceeds)

end Configuration

end DialogueScript
