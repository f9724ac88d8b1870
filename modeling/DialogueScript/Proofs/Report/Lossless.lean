/-
# Reports written as JSON can be read back

A report is printed as a JSON text, and nothing is lost.  The decoders here go the other way, from a
value to the report: they look the fields up by their keys, take null for a line or a detail that is
missing, and read the usage as a table of counts.  They are no part of the program; they are what
another program can do with what this one prints.

Two steps lead back.  A text that is printed denotes the value that was printed and no other
(`Json.Denotes`), and a decoder gives back what was encoded (`ofJson?_toJson` for each of the
encoders).  So texts that are the same come from reports that are the same (`Lossless`).
-/
import DialogueScript.Proofs.Json.Printing
import DialogueScript.Report.Basic

namespace DialogueScript

/-! ### Parts of values -/

namespace Json

/-- The member of an object with a given key. -/
def member? (key : String) : Json → Option Json
  | object members => members.lookup key
  | _ => none

def number? : Json → Option Nat
  | number n => some n
  | _ => none

def string? : Json → Option String
  | string s => some s
  | _ => none

def array? : Json → Option (List Json)
  | array items => some items
  | _ => none

def object? : Json → Option (List (String × Json))
  | object members => some members
  | _ => none

/-- A value that is missing if it is null. -/
def option? {α : Type} (decode : Json → Option α) : Json → Option (Option α)
  | null => some none
  | value => (decode value).map some

/-- **What may be missing is distinguished from all that is there**, if null stands for nothing
else. -/
theorem option?_ofOption {α : Type} (encode : α → Json) (decode : Json → Option α)
    (hnull : ∀ x, encode x ≠ null) (h : ∀ x, decode (encode x) = some x) (value : Option α) :
    option? decode (ofOption encode value) = some value := by
  cases value with
  | none => rfl
  | some x =>
    rw [ofOption, option?, h]
    · rfl
    · exact hnull x

/-- A list of members, each of which is given back, is given back. -/
theorem mapM_map {α β : Type} (encode : α → β) (decode : β → Option α)
    (h : ∀ x, decode (encode x) = some x) (xs : List α) :
    (xs.map encode).mapM decode = some xs := by
  induction xs with
  | nil => rfl
  | cons x xs ih => simp [h, ih]

end Json

/-! ### Decoders -/

/-- The level with a given name. -/
def Level.ofKey? (key : String) : Option Level :=
  [info, warn, error].find? fun level => level.key == key

/-- The diagnostic that an object says. -/
def Diagnostic.ofJson? (value : Json) : Option Diagnostic := do
  let level ← (← value.member? "level").string?
  let script ← (← value.member? "script_id").string?
  let line ← (← value.member? "line").option? Json.number?
  let message ← (← value.member? "message").string?
  let detail ← (← value.member? "detail").option? Json.string?
  return ⟨← Level.ofKey? level, script, line, message, detail⟩

/-- The diagnostics that an object lists. -/
def Diagnostics.ofJson? (value : Json) : Option Diagnostics := do
  let items ← (← value.member? "diagnostics").array?
  items.mapM Diagnostic.ofJson?

/-- The usage that an object tells. -/
def Usage.ofJson? (value : Json) : Option Usage := do
  let members ← value.object?
  let entries ← members.mapM fun member => member.2.number?.map (member.1, ·)
  return Catalogue.ofList entries

/-- The report that an object says. -/
def Report.ofJson? (value : Json) : Option Report := do
  let scripts ← (← value.member? "scripts_checked").number?
  let diagnostics ← Diagnostics.ofJson? (← value.member? "diagnostics")
  let usage ← Usage.ofJson? (← value.member? "action_usage")
  return ⟨scripts, diagnostics, usage⟩

theorem Level.ofKey?_key (level : Level) : Level.ofKey? level.key = some level := by
  cases level with
  | info | warn | error => rfl

theorem Diagnostic.ofJson?_toJson (d : Diagnostic) : Diagnostic.ofJson? d.toJson = some d := by
  have hline := Json.option?_ofOption .number Json.number? (fun _ => Json.noConfusion)
    (fun _ => rfl) d.line
  have hdetail := Json.option?_ofOption .string Json.string? (fun _ => Json.noConfusion)
    (fun _ => rfl) d.detail
  simp [ofJson?, toJson, Json.member?, List.lookup_cons, Json.string?, Level.ofKey?_key, hline,
    hdetail]

theorem Diagnostics.ofJson?_toJson (ds : Diagnostics) :
    Diagnostics.ofJson? ds.toJson = some ds := by
  have hitems := Json.mapM_map _ _ Diagnostic.ofJson?_toJson ds
  simp [ofJson?, toJson, Json.member?, Json.array?, hitems]

theorem Usage.ofJson?_toJson (usage : Usage) : Usage.ofJson? usage.toJson = some usage := by
  have hobject : usage.toJson = .object (usage.entries.map (Prod.map id .number)) := rfl
  have hentries := Json.mapM_map (Prod.map id Json.number)
    (fun member : String × Json => member.2.number?.map (member.1, ·)) (fun _ => rfl) usage.entries
  simp [hobject, ofJson?, Json.object?, hentries, Catalogue.ofList_entries]

theorem Report.ofJson?_toJson (r : Report) : Report.ofJson? r.toJson = some r := by
  simp [ofJson?, toJson, Json.member?, List.lookup_cons, Json.number?, Diagnostics.ofJson?_toJson,
    Usage.ofJson?_toJson]

/-! ### No loss -/

/-- A text that denotes a value and no other, with every character below U+0020 that stands in a
string escaped. -/
structure Json.Denotes (text : List Char) (value : Json) : Prop where
  isText : Document value text
  only : ∀ other, Document other text → other = value
  noControl : NoControl (stringChars .outside text)

theorem Json.Document.denotes {value : Json} {text : List Char} (h : Document value text) :
    Denotes text value where
  isText := h
  only := fun _ hother => document_unique hother h
  noControl := h.noControl

/-- Things that are encoded can be printed in either layout without loss: both are texts of the one
value, from which the thing is read back, so that things printed alike are the same. -/
structure Lossless {α : Type} (encode : α → Json) (decode : Json → Option α) : Prop where
  compact : ∀ x, Json.Denotes (encode x).compact (encode x)
  pretty : ∀ x, Json.Denotes (encode x).pretty (encode x)
  readBack : ∀ x value,
    Json.Document value (encode x).compact ∨ Json.Document value (encode x).pretty →
      decode value = some x
  compact_injective : Function.Injective fun x => (encode x).compact
  pretty_injective : Function.Injective fun x => (encode x).pretty

/-- Nothing is lost where decoding undoes encoding. -/
theorem lossless_of_decode {α : Type} {encode : α → Json} {decode : Json → Option α}
    (h : ∀ x, decode (encode x) = some x) : Lossless encode decode := by
  have hcompact : ∀ x, Json.Denotes (encode x).compact (encode x) :=
    fun x => (Json.document_compact (encode x)).denotes
  have hpretty : ∀ x, Json.Denotes (encode x).pretty (encode x) :=
    fun x => (Json.document_pretty (encode x)).denotes
  -- a text that two things share denotes the values of both, which are then one
  have hinjective : ∀ {text text' x y}, Json.Denotes text (encode x) →
      Json.Denotes text' (encode y) → text = text' → x = y := by
    rintro text _ x y hx hy rfl
    have hvalue : encode x = encode y := hy.only _ hx.isText
    apply Option.some.inj
    rw [← h x, ← h y, hvalue]
  constructor
  · exact hcompact
  · exact hpretty
  · intro x value hvalue
    have hencode : value = encode x := hvalue.elim ((hcompact x).only _) ((hpretty x).only _)
    rw [hencode, h]
  · intro x y hxy
    exact hinjective (hcompact x) (hcompact y) hxy
  · intro x y hxy
    exact hinjective (hpretty x) (hpretty y) hxy

/-- **A printed report is lossless**, and so are diagnostics printed by themselves. -/
theorem report_isLossless :
    Lossless Report.toJson Report.ofJson? ∧ Lossless Diagnostics.toJson Diagnostics.ofJson? := by
  constructor
  · exact lossless_of_decode Report.ofJson?_toJson
  · exact lossless_of_decode Diagnostics.ofJson?_toJson

end DialogueScript
