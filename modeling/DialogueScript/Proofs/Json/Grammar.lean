/-
# What a JSON text denotes

The texts of a JSON value, as a grammar: white space may stand around every value, key and mark,
and in a string a character may stand for itself or be written as an escape.  The grammar says
which texts denote a value (`Json.Text`), and not how the value is found; `Json.Document` allows
white space around the whole.

**A text denotes one value only** (`document_unique`).  To prove it, two texts are compared that
are followed by anything at all: a value is at its end where the text stops being one, whatever
comes then (`Unique`).  A numeral alone needs to know that no digit follows.  What is listed
between brackets is compared item by item (`Separated.unique`).

A character below U+0020 can stand outside of strings only, as white space: what is between
quotation marks (`stringChars`) has none (`Document.noControl`).
-/
import DialogueScript.Json.Quoted
import DialogueScript.Json.Value
import DialogueScript.Proofs.Number.Grammar

namespace DialogueScript

/-! ### Strings -/

/-- The number that hexadecimal digits give, if they all are digits. -/
def hexNumber? (digits : List Char) : Option Nat :=
  digits.foldl (fun value c => value.bind fun high =>
    (QuotedScan.hexValue? c).map fun digit => 16 * high + digit) (some 0)

/-- The four digits of a `\u` escape. -/
structure HexText (unit : Nat) (digits : List Char) : Prop where
  length_eq : digits.length = 4
  value_eq : hexNumber? digits = some unit

/-- How a character can be written in a string. -/
inductive CharText : Char → List Char → Prop
  | plain {c} : 0x20 ≤ c.toNat → c ≠ '"' → c ≠ '\\' → CharText c [c]
  | short {c letter} : QuotedScan.shortEscape? letter = some c → CharText c ['\\', letter]
  | unit {c digits} : HexText c.toNat digits → CharText c ('\\' :: 'u' :: digits)
  | pair {lead trail digits digits'} : HexText lead digits → QuotedScan.isLead lead = true →
      HexText trail digits' → QuotedScan.isTrail trail = true →
      CharText (QuotedScan.pairedChar lead trail)
        ('\\' :: 'u' :: (digits ++ '\\' :: 'u' :: digits'))

/-- How a string can be written between its quotation marks. -/
inductive StringText : List Char → List Char → Prop
  | nil : StringText [] []
  | cons {c s text text'} : CharText c text → StringText s text' →
      StringText (c :: s) (text ++ text')

/-- How a string can be written. -/
inductive QuotedText : String → List Char → Prop
  | intro {s text} : StringText s.toList text → QuotedText s ('"' :: (text ++ ['"']))

/-! ### Values -/

/-- White space. -/
def AreBlanks (text : List Char) : Prop :=
  ∀ c ∈ text, isJsonBlank c = true

/-- The digits of a natural number, without a zero that leads others. -/
structure NaturalText (n : Nat) (digits : List Char) : Prop where
  isDigits : IsDigits digits
  leading : digits.head? = some '0' → digits = ['0']
  value_eq : digitsValue digits = n

/-- What can be written between brackets for a list: texts of its members with commas between them,
and white space anywhere around them. -/
inductive Separated {α : Type} (P : α → List Char → Prop) : List α → List Char → Prop
  | nil {blanks} : AreBlanks blanks → Separated P [] blanks
  | single {x before text after} : AreBlanks before → P x text → AreBlanks after →
      Separated P [x] (before ++ (text ++ after))
  | cons {x y xs before text after rest} : AreBlanks before → P x text → AreBlanks after →
      Separated P (y :: xs) rest →
      Separated P (x :: y :: xs) (before ++ (text ++ (after ++ ',' :: rest)))

namespace Json

mutual

/-- The texts of a value. -/
inductive Text : Json → List Char → Prop
  | null : Text .null ['n', 'u', 'l', 'l']
  | number {n digits} : NaturalText n digits → Text (.number n) digits
  | string {s text} : QuotedText s text → Text (.string s) text
  | array {items text} : Separated Text items text → Text (.array items) ('[' :: (text ++ [']']))
  | object {members text} : Separated MemberText members text →
      Text (.object members) ('\x7b' :: (text ++ ['\x7d']))

/-- The texts of a member of an object: its key, a colon, and its value. -/
inductive MemberText : String × Json → List Char → Prop
  | intro {key value name after before text} : QuotedText key name → AreBlanks after →
      AreBlanks before → Text value text →
      MemberText (key, value) (name ++ (after ++ ':' :: (before ++ text)))

end

/-- The texts of a value, with white space around them. -/
def Document (value : Json) (text : List Char) : Prop :=
  ∃ before body after, text = before ++ (body ++ after) ∧
    AreBlanks before ∧ Text value body ∧ AreBlanks after

/-- What holds of a value if it holds of what it contains, holds of all values. -/
@[elab_as_elim]
theorem induct {motive : Json → Prop} (null : motive .null) (number : ∀ n, motive (.number n))
    (string : ∀ s, motive (.string s))
    (array : ∀ items, (∀ item ∈ items, motive item) → motive (.array items))
    (object : ∀ members : List (String × Json), (∀ member ∈ members, motive member.2) →
      motive (.object members)) : ∀ value, motive value
  | .null => null
  | .number n => number n
  | .string s => string s
  | .array items => array items fun item _ => induct null number string array object item
  | .object members =>
    object members fun member _ => induct null number string array object member.2
termination_by value => sizeOf value
decreasing_by
  · have hitem := List.sizeOf_lt_of_mem ‹item ∈ items›
    rw [Json.array.sizeOf_spec]
    omega
  · have hmember := List.sizeOf_lt_of_mem ‹member ∈ members›
    obtain ⟨key, value⟩ := member
    rw [Prod.mk.sizeOf_spec] at hmember
    rw [Json.object.sizeOf_spec]
    show sizeOf value < 1 + sizeOf members
    omega

end Json

/-! ### A text says one thing -/

/-- Texts of `x` are those of nothing else, and end at the same place, whatever follows them. -/
def Unique {α : Type} (P : α → List Char → Prop) (x : α) : Prop :=
  ∀ ⦃y text text' rest rest'⦄, P x text → P y text' → text ++ rest = text' ++ rest' →
    Stops Char.isDigit rest → Stops Char.isDigit rest' → x = y ∧ rest = rest'

theorem HexText.unique {unit unit' : Nat} {digits digits' rest rest' : List Char}
    (h : HexText unit digits) (h' : HexText unit' digits')
    (heq : digits ++ rest = digits' ++ rest') : unit = unit' ∧ rest = rest' := by
  obtain ⟨rfl, rfl⟩ := List.append_inj heq (h.length_eq.trans h'.length_eq.symm)
  exact ⟨Option.some.inj (h.value_eq.symm.trans h'.value_eq), rfl⟩

/-- No character is half of a pair of surrogates. -/
theorem isLead_toNat (c : Char) : QuotedScan.isLead c.toNat = false := by
  have hvalid : c.toNat < 0xD800 ∨ 0xDFFF < c.toNat ∧ c.toNat < 0x110000 := c.valid
  rw [QuotedScan.isLead, Bool.and_eq_false_iff, decide_eq_false_iff_not, decide_eq_false_iff_not]
  omega

theorem CharText.unique {c d : Char} {text text' rest rest' : List Char} (h : CharText c text)
    (h' : CharText d text') (heq : text ++ rest = text' ++ rest') : c = d ∧ rest = rest' := by
  cases h with
  | plain hlarge hquote hbackslash =>
    cases h' with
    | plain => exact List.cons.inj heq
    | short | unit | pair => exact absurd (List.cons.inj heq).1 hbackslash
  | short hshort =>
    cases h' with
    | plain _ _ hbackslash => exact absurd (List.cons.inj heq).1.symm hbackslash
    | short hshort' =>
      obtain ⟨-, htail⟩ := List.cons.inj heq
      obtain ⟨rfl, hrest⟩ := List.cons.inj htail
      exact ⟨Option.some.inj (hshort.symm.trans hshort'), hrest⟩
    | unit | pair =>
      -- there is no short escape by the letter of the long ones
      obtain ⟨-, htail⟩ := List.cons.inj heq
      obtain ⟨rfl, -⟩ := List.cons.inj htail
      cases hshort
  | unit hunit =>
    cases h' with
    | plain _ _ hbackslash => exact absurd (List.cons.inj heq).1.symm hbackslash
    | short hshort =>
      obtain ⟨-, htail⟩ := List.cons.inj heq
      obtain ⟨rfl, -⟩ := List.cons.inj htail
      cases hshort
    | unit hunit' =>
      -- the four digits come first in both, so they are the same
      obtain ⟨hvalue, hrest⟩ := hunit.unique hunit' (List.cons.inj (List.cons.inj heq).2).2
      exact ⟨Char.toNat_inj.mp hvalue, hrest⟩
    | pair hlead hislead =>
      -- a character would be its own leading surrogate
      simp only [List.cons_append, List.append_assoc] at heq
      obtain ⟨rfl, -⟩ := hunit.unique hlead (List.cons.inj (List.cons.inj heq).2).2
      rw [isLead_toNat] at hislead
      cases hislead
  | pair hlead hislead htrail =>
    simp only [List.cons_append, List.append_assoc] at heq
    cases h' with
    | plain _ _ hbackslash => exact absurd (List.cons.inj heq).1.symm hbackslash
    | short hshort =>
      obtain ⟨-, htail⟩ := List.cons.inj heq
      obtain ⟨rfl, -⟩ := List.cons.inj htail
      cases hshort
    | unit hunit =>
      obtain ⟨rfl, -⟩ := hlead.unique hunit (List.cons.inj (List.cons.inj heq).2).2
      rw [isLead_toNat] at hislead
      cases hislead
    | pair hlead' _ htrail' =>
      simp only [List.cons_append, List.append_assoc] at heq
      obtain ⟨rfl, heq'⟩ := hlead.unique hlead' (List.cons.inj (List.cons.inj heq).2).2
      obtain ⟨rfl, hrest⟩ := htrail.unique htrail' (List.cons.inj (List.cons.inj heq').2).2
      exact ⟨rfl, hrest⟩

/-- A character in a string does not begin with the quotation mark that ends the string. -/
theorem CharText.exists_cons {c : Char} {text : List Char} (h : CharText c text) :
    ∃ first rest, text = first :: rest ∧ first ≠ '"' := by
  cases h with
  | plain _ hquote => exact ⟨_, _, rfl, hquote⟩
  | short | unit | pair => exact ⟨_, _, rfl, by decide⟩

theorem StringText.unique {s s' text text' rest rest' : List Char} (h : StringText s text)
    (h' : StringText s' text') (heq : text ++ '"' :: rest = text' ++ '"' :: rest') :
    s = s' ∧ rest = rest' := by
  induction h generalizing s' text' with
  | nil =>
    cases h' with
    | nil => exact ⟨rfl, (List.cons.inj heq).2⟩
    | cons hchar =>
      obtain ⟨first, tail, rfl, hne⟩ := hchar.exists_cons
      exact absurd (List.cons.inj heq).1.symm hne
  | cons hchar _ ih =>
    cases h' with
    | nil =>
      obtain ⟨first, tail, rfl, hne⟩ := hchar.exists_cons
      exact absurd (List.cons.inj heq).1 hne
    | cons hchar' hstring' =>
      rw [List.append_assoc, List.append_assoc] at heq
      obtain ⟨rfl, heq'⟩ := hchar.unique hchar' heq
      obtain ⟨rfl, hrest⟩ := ih hstring' heq'
      exact ⟨rfl, hrest⟩

theorem QuotedText.unique {s s' : String} {text text' rest rest' : List Char}
    (h : QuotedText s text) (h' : QuotedText s' text') (heq : text ++ rest = text' ++ rest') :
    s = s' ∧ rest = rest' := by
  obtain ⟨hstring⟩ := h
  obtain ⟨hstring'⟩ := h'
  simp only [List.cons_append, List.append_assoc, List.cons.injEq, true_and] at heq
  obtain ⟨hs, hrest⟩ := hstring.unique hstring' heq
  exact ⟨String.toList_injective hs, hrest⟩

theorem NaturalText.unique {n n' : Nat} {digits digits' rest rest' : List Char}
    (h : NaturalText n digits) (h' : NaturalText n' digits')
    (heq : digits ++ rest = digits' ++ rest') (hrest : Stops Char.isDigit rest)
    (hrest' : Stops Char.isDigit rest') : n = n' ∧ rest = rest' := by
  -- nothing but the end of the digits tells where a numeral ends
  obtain rfl : digits = digits' := by
    rw [← takeWhile_run h.isDigits.2 hrest, heq, takeWhile_run h'.isDigits.2 hrest']
  exact ⟨h.value_eq.symm.trans h'.value_eq, List.append_cancel_left heq⟩

/-! #### Lists -/

/-- White space before something else is cut off where it was put. -/
theorem blanks_cancel {blanks blanks' rest rest' : List Char} (h : AreBlanks blanks)
    (h' : AreBlanks blanks') (hrest : Stops isJsonBlank rest) (hrest' : Stops isJsonBlank rest')
    (heq : blanks ++ rest = blanks' ++ rest') : rest = rest' := by
  rw [← dropWhile_run h hrest, heq, dropWhile_run h' hrest']

theorem isDigit_of_isJsonBlank {c : Char} (h : isJsonBlank c = true) : c.isDigit = false := by
  simp only [isJsonBlank, Bool.or_eq_true, beq_iff_eq] at h
  rcases h with ((rfl | rfl) | rfl) | rfl
  · rfl
  · rfl
  · rfl
  · rfl

/-- White space is followed by no digit if what comes behind it is none. -/
theorem stops_isDigit_blanks {blanks : List Char} (h : AreBlanks blanks) {rest : List Char}
    (hrest : Stops Char.isDigit rest) : Stops Char.isDigit (blanks ++ rest) := by
  rcases blanks with - | ⟨blank, blanks⟩
  · exact hrest
  · exact stops_cons (isDigit_of_isJsonBlank (h blank List.mem_cons_self)) _

/-- A mark can stand behind a value: it is neither white space nor a digit. -/
def IsMark (c : Char) : Prop :=
  isJsonBlank c = false ∧ c.isDigit = false

section Separated

variable {α : Type} {P : α → List Char → Prop} {closing : Char}

/-- What a text of a member begins with is no white space and does not close the list. -/
def Opens (P : α → List Char → Prop) (closing : Char) : Prop :=
  ∀ ⦃x text⦄, P x text → ∃ c tail, text = c :: tail ∧ isJsonBlank c = false ∧ c ≠ closing

theorem Opens.stops (h : Opens P closing) {x : α} {text : List Char} (htext : P x text)
    (rest : List Char) : Stops isJsonBlank (text ++ rest) := by
  obtain ⟨c, tail, rfl, hblank, -⟩ := h htext
  exact stops_cons hblank _

/-- Where a list has a first member, it is not closed. -/
theorem Opens.ne_closing (h : Opens P closing) (hclosing : IsMark closing) {x : α}
    {blanks before text tail rest : List Char} (hblanks : AreBlanks blanks)
    (hbefore : AreBlanks before) (htext : P x text) :
    blanks ++ closing :: rest ≠ before ++ (text ++ tail) := by
  intro heq
  have hfirst := blanks_cancel hblanks hbefore (stops_cons hclosing.1 rest) (h.stops htext tail) heq
  obtain ⟨c, tail', rfl, -, hne⟩ := h htext
  exact hne (List.cons.inj hfirst).1.symm

/-- The next members of two lists are the same, and so are the marks behind them. -/
theorem Unique.member {x y : α} {before text after before' text' after' rest rest' : List Char}
    {mark mark' : Char} (hunique : Unique P x) (hopens : Opens P closing)
    (hbefore : AreBlanks before) (htext : P x text) (hafter : AreBlanks after)
    (hbefore' : AreBlanks before') (htext' : P y text') (hafter' : AreBlanks after')
    (hmark : IsMark mark) (hmark' : IsMark mark')
    (heq : before ++ (text ++ (after ++ mark :: rest))
      = before' ++ (text' ++ (after' ++ mark' :: rest'))) :
    x = y ∧ mark = mark' ∧ rest = rest' := by
  have hfirst := blanks_cancel hbefore hbefore' (hopens.stops htext _) (hopens.stops htext' _) heq
  obtain ⟨hxy, htail⟩ := hunique htext htext' hfirst
    (stops_isDigit_blanks hafter (stops_cons hmark.2 rest))
    (stops_isDigit_blanks hafter' (stops_cons hmark'.2 rest'))
  have hlast := blanks_cancel hafter hafter' (stops_cons hmark.1 rest)
    (stops_cons hmark'.1 rest') htail
  exact ⟨hxy, List.cons.inj hlast⟩

/-- **A list is read off its text**, up to the bracket that closes it. -/
theorem Separated.unique {xs ys : List α} {text text' rest rest' : List Char}
    (hunique : ∀ x ∈ xs, Unique P x) (hopens : Opens P closing) (hclosing : IsMark closing)
    (hne : closing ≠ ',') (h : Separated P xs text) (h' : Separated P ys text')
    (heq : text ++ closing :: rest = text' ++ closing :: rest') : xs = ys ∧ rest = rest' := by
  have hcomma : IsMark ',' := ⟨rfl, rfl⟩
  -- along the first list: behind each member the mark says whether there is another
  induction h generalizing ys text' with
  | nil hblanks =>
    cases h' with
    | nil hblanks' =>
      have hlast := blanks_cancel hblanks hblanks' (stops_cons hclosing.1 _)
        (stops_cons hclosing.1 _) heq
      exact ⟨rfl, (List.cons.inj hlast).2⟩
    | single hbefore htext _ =>
      rw [List.append_assoc, List.append_assoc] at heq
      exact absurd heq (hopens.ne_closing hclosing hblanks hbefore htext)
    | cons hbefore htext _ _ =>
      rw [List.append_assoc, List.append_assoc] at heq
      exact absurd heq (hopens.ne_closing hclosing hblanks hbefore htext)
  | single hbefore htext hafter =>
    rw [List.append_assoc, List.append_assoc] at heq
    cases h' with
    | nil hblanks =>
      exact absurd heq.symm (hopens.ne_closing hclosing hblanks hbefore htext)
    | single hbefore' htext' hafter' =>
      rw [List.append_assoc, List.append_assoc] at heq
      obtain ⟨rfl, -, hrest⟩ := (hunique _ List.mem_cons_self).member hopens hbefore htext hafter
        hbefore' htext' hafter' hclosing hclosing heq
      exact ⟨rfl, hrest⟩
    | cons hbefore' htext' hafter' _ =>
      rw [List.append_assoc, List.append_assoc, List.append_assoc, List.cons_append] at heq
      obtain ⟨-, hmark, -⟩ := (hunique _ List.mem_cons_self).member hopens hbefore htext hafter
        hbefore' htext' hafter' hclosing hcomma heq
      exact absurd hmark hne
  | cons hbefore htext hafter _ ih =>
    rw [List.append_assoc, List.append_assoc, List.append_assoc, List.cons_append] at heq
    cases h' with
    | nil hblanks =>
      exact absurd heq.symm (hopens.ne_closing hclosing hblanks hbefore htext)
    | single hbefore' htext' hafter' =>
      rw [List.append_assoc, List.append_assoc] at heq
      obtain ⟨-, hmark, -⟩ := (hunique _ List.mem_cons_self).member hopens hbefore htext hafter
        hbefore' htext' hafter' hcomma hclosing heq
      exact absurd hmark.symm hne
    | cons hbefore' htext' hafter' hothers' =>
      rw [List.append_assoc, List.append_assoc, List.append_assoc, List.cons_append] at heq
      obtain ⟨rfl, -, htail⟩ := (hunique _ List.mem_cons_self).member hopens hbefore htext hafter
        hbefore' htext' hafter' hcomma hcomma heq
      have hunique' := fun x hx => hunique x (List.mem_cons_of_mem _ hx)
      obtain ⟨hothers, hrest⟩ := ih hunique' hothers' htail
      exact ⟨congrArg _ hothers, hrest⟩

end Separated

/-! #### Values -/

namespace Json

/-- What the texts of a value begin with. -/
def Begins : Json → Char → Prop
  | null, c => c = 'n'
  | number _, c => c.isDigit = true
  | string _, c => c = '"'
  | array _, c => c = '['
  | object _, c => c = '{'

theorem Text.begins {value : Json} {text : List Char} (h : Text value text) :
    ∃ c tail, text = c :: tail ∧ value.Begins c := by
  cases h with
  | null => exact ⟨_, _, rfl, rfl⟩
  | number hnatural =>
    obtain ⟨c, tail, rfl⟩ := List.exists_cons_of_ne_nil hnatural.isDigits.1
    exact ⟨c, tail, rfl, hnatural.isDigits.2 c List.mem_cons_self⟩
  | string hquoted =>
    obtain ⟨-⟩ := hquoted
    exact ⟨_, _, rfl, rfl⟩
  | array | object => exact ⟨_, _, rfl, rfl⟩

/-- Two values of one kind. -/
inductive SameKind : Json → Json → Prop
  | null : SameKind .null .null
  | number (n n' : Nat) : SameKind (.number n) (.number n')
  | string (s s' : String) : SameKind (.string s) (.string s')
  | array (items items' : List Json) : SameKind (.array items) (.array items')
  | object (members members' : List (String × Json)) : SameKind (.object members) (.object members')

/-- The first character of a text tells the kind of the value. -/
theorem sameKind_of_begins {value value' : Json} {c : Char} (h : value.Begins c)
    (h' : value'.Begins c) : SameKind value value' := by
  cases value with
  | null =>
    obtain rfl : c = 'n' := h
    cases value' with
    | null => exact .null
    | number | string | array | object => simp [Begins] at h'
  | number n =>
    cases value' with
    | number n' => exact .number n n'
    | null | string | array | object =>
      obtain rfl := h'
      simp [Begins] at h
  | string s =>
    obtain rfl : c = '"' := h
    cases value' with
    | string s' => exact .string s s'
    | null | number | array | object => simp [Begins] at h'
  | array items =>
    obtain rfl : c = '[' := h
    cases value' with
    | array items' => exact .array items items'
    | null | number | string | object => simp [Begins] at h'
  | object members =>
    obtain rfl : c = '{' := h
    cases value' with
    | object members' => exact .object members members'
    | null | number | string | array => simp [Begins] at h'

/-- What a value begins with is no white space and closes nothing. -/
theorem opening_of_begins {value : Json} {c : Char} (h : value.Begins c) :
    isJsonBlank c = false ∧ c ≠ ']' ∧ c ≠ '}' := by
  cases value with
  | number =>
    refine ⟨?_, ?_, ?_⟩
    · rw [Bool.eq_false_iff]
      intro hblank
      exact absurd h (Bool.eq_false_iff.mp (isDigit_of_isJsonBlank hblank))
    · rintro rfl
      cases h
    · rintro rfl
      cases h
  | null | string | array | object =>
    obtain rfl := h
    decide

theorem opens_text {closing : Char} (h : closing = ']' ∨ closing = '\x7d') :
    Opens Text closing := by
  intro value text htext
  obtain ⟨c, tail, rfl, hbegins⟩ := htext.begins
  obtain ⟨hblank, hbracket, hbrace⟩ := opening_of_begins hbegins
  refine ⟨c, tail, rfl, hblank, ?_⟩
  rcases h with rfl | rfl
  · exact hbracket
  · exact hbrace

theorem opens_memberText : Opens MemberText '\x7d' := by
  intro member text htext
  obtain ⟨⟨-⟩, -, -, -⟩ := htext
  exact ⟨_, _, rfl, rfl, by decide⟩

/-- A member is read off its text if its value is. -/
theorem unique_memberText {member : String × Json} (h : Unique Text member.2) :
    Unique MemberText member := by
  intro member' text text' rest rest' htext htext' heq hrest hrest'
  obtain ⟨hname, hafter, hbefore, hvalue⟩ := htext
  obtain ⟨hname', hafter', hbefore', hvalue'⟩ := htext'
  simp only [List.append_assoc, List.cons_append] at heq
  obtain ⟨rfl, heq⟩ := hname.unique hname' heq
  have hcolon := blanks_cancel hafter hafter' (stops_cons rfl _) (stops_cons rfl _) heq
  have hopens := opens_text (.inl rfl)
  have hfirst := blanks_cancel hbefore hbefore' (hopens.stops hvalue rest)
    (hopens.stops hvalue' rest') (List.cons.inj hcolon).2
  obtain ⟨rfl, hend⟩ := h hvalue hvalue' hfirst hrest hrest'
  exact ⟨rfl, hend⟩

theorem sameKind_of_text {value value' : Json} {text text' rest rest' : List Char}
    (h : Text value text) (h' : Text value' text') (heq : text ++ rest = text' ++ rest') :
    SameKind value value' := by
  obtain ⟨c, tail, rfl, hbegins⟩ := h.begins
  obtain ⟨c', tail', rfl, hbegins'⟩ := h'.begins
  obtain rfl := (List.cons.inj heq).1
  exact sameKind_of_begins hbegins hbegins'

/-- **A value is read off its text**, whatever follows. -/
theorem unique_text (value : Json) : Unique Text value := by
  -- on the value, which decides by its kind what its texts look like
  induction value using induct with
  | null =>
    intro value' text text' rest rest' htext htext' heq _ _
    cases sameKind_of_text htext htext' heq
    cases htext
    cases htext'
    exact ⟨rfl, List.append_cancel_left heq⟩
  | number n =>
    intro value' text text' rest rest' htext htext' heq hrest hrest'
    cases sameKind_of_text htext htext' heq
    cases htext with
    | number hnatural =>
      cases htext' with
      | number hnatural' =>
        obtain ⟨rfl, hend⟩ := hnatural.unique hnatural' heq hrest hrest'
        exact ⟨rfl, hend⟩
  | string s =>
    intro value' text text' rest rest' htext htext' heq _ _
    cases sameKind_of_text htext htext' heq
    cases htext with
    | string hquoted =>
      cases htext' with
      | string hquoted' =>
        obtain ⟨rfl, hend⟩ := hquoted.unique hquoted' heq
        exact ⟨rfl, hend⟩
  | array items ih =>
    intro value' text text' rest rest' htext htext' heq _ _
    cases sameKind_of_text htext htext' heq
    cases htext with
    | array hitems =>
      cases htext' with
      | array hitems' =>
        simp only [List.cons_append, List.append_assoc, List.nil_append, List.cons.injEq,
          true_and] at heq
        obtain ⟨rfl, hend⟩ :=
          hitems.unique ih (opens_text (.inl rfl)) ⟨rfl, rfl⟩ (by decide) hitems' heq
        exact ⟨rfl, hend⟩
  | object members ih =>
    intro value' text text' rest rest' htext htext' heq _ _
    cases sameKind_of_text htext htext' heq
    cases htext with
    | object hmembers =>
      cases htext' with
      | object hmembers' =>
        simp only [List.cons_append, List.append_assoc, List.nil_append, List.cons.injEq,
          true_and] at heq
        have hunique : ∀ member ∈ members, Unique MemberText member :=
          fun member hmember => unique_memberText (ih member hmember)
        obtain ⟨rfl, hend⟩ :=
          hmembers.unique hunique opens_memberText ⟨rfl, rfl⟩ (by decide) hmembers' heq
        exact ⟨rfl, hend⟩

/-- **A text denotes one value.** -/
theorem document_unique {value value' : Json} {text : List Char} (h : Document value text)
    (h' : Document value' text) : value = value' := by
  obtain ⟨before, body, after, rfl, hbefore, htext, hafter⟩ := h
  obtain ⟨before', body', after', heq, hbefore', htext', hafter'⟩ := h'
  have hopens := opens_text (.inl rfl)
  have hfirst := blanks_cancel hbefore hbefore' (hopens.stops htext _) (hopens.stops htext' _) heq
  have hnil : Stops Char.isDigit [] := fun c hc => by simp at hc
  have hstops := stops_isDigit_blanks hafter hnil
  have hstops' := stops_isDigit_blanks hafter' hnil
  rw [List.append_nil] at hstops hstops'
  exact (unique_text value htext htext' hfirst hstops hstops').1

end Json

/-! ### Characters in strings -/

/-- Where a character of a JSON text stands: outside of the strings, in one, or behind a backslash
in one. -/
inductive StringPlace where
  | outside
  | inside
  | escaped

/-- The characters of a JSON text that stand between the quotation marks of its strings. -/
def stringChars : StringPlace → List Char → List Char
  | _, [] => []
  | .outside, c :: text => if c = '"' then stringChars .inside text else stringChars .outside text
  | .inside, c :: text =>
    if c = '"' then stringChars .outside text
    else c :: stringChars (if c = '\\' then .escaped else .inside) text
  | .escaped, c :: text => c :: stringChars .inside text

/-- No character is below U+0020. -/
def NoControl (text : List Char) : Prop :=
  ∀ c ∈ text, 0x20 ≤ c.toNat

theorem NoControl.cons {c : Char} {text : List Char} (hc : 0x20 ≤ c.toNat) (h : NoControl text) :
    NoControl (c :: text) :=
  List.forall_mem_cons.mpr ⟨hc, h⟩

/-- A text read from `place` to `place'` in which no string has a character below U+0020. -/
def StringsClean (place place' : StringPlace) (text : List Char) : Prop :=
  ∀ rest, NoControl (stringChars place' rest) → NoControl (stringChars place (text ++ rest))

theorem StringsClean.append {place place' place'' : StringPlace} {text text' : List Char}
    (h : StringsClean place place' text) (h' : StringsClean place' place'' text') :
    StringsClean place place'' (text ++ text') := by
  intro rest hrest
  rw [List.append_assoc]
  exact h _ (h' rest hrest)

theorem StringsClean.cons {c : Char} {text : List Char} (hc : c ≠ '"')
    (h : StringsClean .outside .outside text) : StringsClean .outside .outside (c :: text) := by
  intro rest hrest
  rw [List.cons_append, stringChars, if_neg hc]
  exact h rest hrest

/-- What has no quotation mark in it has no string in it. -/
theorem stringsClean_outside {text : List Char} (h : ∀ c ∈ text, c ≠ '"') :
    StringsClean .outside .outside text := by
  induction text with
  | nil => exact fun _ hrest => hrest
  | cons c text ih =>
    obtain ⟨hc, htext⟩ := List.forall_mem_cons.mp h
    exact (ih htext).cons hc

theorem stringsClean_blanks {blanks : List Char} (h : AreBlanks blanks) :
    StringsClean .outside .outside blanks := by
  refine stringsClean_outside fun c hc => ?_
  rintro rfl
  cases h _ hc

/-- What stands for itself in a string. -/
theorem stringsClean_inside {text : List Char}
    (h : ∀ c ∈ text, 0x20 ≤ c.toNat ∧ c ≠ '"' ∧ c ≠ '\\') : StringsClean .inside .inside text := by
  induction text with
  | nil => exact fun _ hrest => hrest
  | cons c text ih =>
    obtain ⟨⟨hlarge, hquote, hbackslash⟩, htext⟩ := List.forall_mem_cons.mp h
    intro rest hrest
    rw [List.cons_append, stringChars, if_neg hquote, if_neg hbackslash]
    exact (ih htext rest hrest).cons hlarge

/-- A backslash takes the character behind it along. -/
theorem stringsClean_escape {c : Char} (hc : 0x20 ≤ c.toNat) :
    StringsClean .inside .inside ['\\', c] := by
  intro rest hrest
  exact (hrest.cons hc).cons (by decide)

/-- A hexadecimal digit stands for itself in a string. -/
theorem plain_of_hexValue? {c : Char} {digit : Nat} (h : QuotedScan.hexValue? c = some digit) :
    0x20 ≤ c.toNat ∧ c ≠ '"' ∧ c ≠ '\\' := by
  refine ⟨?_, ?_, ?_⟩
  · unfold QuotedScan.hexValue? at h
    split at h
    · next hdigit =>
      simp only [Char.isDigit, Bool.and_eq_true, decide_eq_true_eq] at hdigit
      have hlarge : 0x30 ≤ c.toNat := hdigit.1
      omega
    · split at h
      · next hlower =>
        have hlarge : 0x61 ≤ c.toNat := hlower.1
        omega
      · split at h
        · next hupper =>
          have hlarge : 0x41 ≤ c.toNat := hupper.1
          omega
        · cases h
  · rintro rfl
    cases h
  · rintro rfl
    cases h

/-- Digits that give a number are hexadecimal, whatever number they go on from. -/
theorem hexValue?_of_foldl {digits : List Char} {value : Option Nat} {unit : Nat}
    (h : digits.foldl (fun value c => value.bind fun high =>
      (QuotedScan.hexValue? c).map fun digit => 16 * high + digit) value = some unit) :
    value ≠ none ∧ ∀ c ∈ digits, ∃ digit, QuotedScan.hexValue? c = some digit := by
  induction digits generalizing value with
  | nil =>
    refine ⟨?_, fun c hc => by simp at hc⟩
    rintro rfl
    cases h
  | cons c digits ih =>
    obtain ⟨hvalue, hdigits⟩ := ih h
    obtain ⟨next, hnext⟩ := Option.ne_none_iff_exists'.mp hvalue
    obtain ⟨high, rfl, hmap⟩ := Option.bind_eq_some_iff.mp hnext
    obtain ⟨digit, hdigit, -⟩ := Option.map_eq_some_iff.mp hmap
    exact ⟨Option.some_ne_none high, List.forall_mem_cons.mpr ⟨⟨digit, hdigit⟩, hdigits⟩⟩

theorem HexText.stringsClean {unit : Nat} {digits : List Char} (h : HexText unit digits) :
    StringsClean .inside .inside digits := by
  refine stringsClean_inside fun c hc => ?_
  obtain ⟨digit, hdigit⟩ := (hexValue?_of_foldl h.value_eq).2 c hc
  exact plain_of_hexValue? hdigit

theorem CharText.stringsClean {c : Char} {text : List Char} (h : CharText c text) :
    StringsClean .inside .inside text := by
  have hmark : StringsClean .inside .inside ['\\', 'u'] := stringsClean_escape (by decide)
  cases h with
  | plain hlarge hquote hbackslash =>
    refine stringsClean_inside fun c hc => ?_
    obtain rfl := List.mem_singleton.mp hc
    exact ⟨hlarge, hquote, hbackslash⟩
  | short hshort =>
    refine stringsClean_escape ?_
    -- the characters below U+0020 are the letter of no escape
    by_contra hsmall
    unfold QuotedScan.shortEscape? at hshort
    split at hshort
    all_goals simp_all
  | unit hdigits => exact hmark.append hdigits.stringsClean
  | pair hlead _ htrail _ =>
    exact hmark.append (hlead.stringsClean.append (hmark.append htrail.stringsClean))

theorem StringText.stringsClean {s text : List Char} (h : StringText s text) :
    StringsClean .inside .inside text := by
  induction h with
  | nil => exact fun _ hrest => hrest
  | cons hchar _ ih => exact hchar.stringsClean.append ih

theorem QuotedText.stringsClean {s : String} {text : List Char} (h : QuotedText s text) :
    StringsClean .outside .outside text := by
  obtain ⟨hstring⟩ := h
  have hclosing : StringsClean .inside .outside ['"'] := fun _ hrest => hrest
  exact fun rest hrest => hstring.stringsClean.append hclosing rest hrest

theorem Separated.stringsClean {α : Type} {P : α → List Char → Prop} {xs : List α}
    {text : List Char} (h : Separated P xs text)
    (hmember : ∀ x ∈ xs, ∀ part, P x part → StringsClean .outside .outside part) :
    StringsClean .outside .outside text := by
  induction h with
  | nil hblanks => exact stringsClean_blanks hblanks
  | single hbefore hpart hafter =>
    have hpart := hmember _ List.mem_cons_self _ hpart
    exact (stringsClean_blanks hbefore).append (hpart.append (stringsClean_blanks hafter))
  | cons hbefore hpart hafter _ ih =>
    obtain ⟨hfirst, hothers⟩ := List.forall_mem_cons.mp hmember
    have hrest := (ih hothers).cons (c := ',') (by decide)
    exact (stringsClean_blanks hbefore).append
      ((hfirst _ hpart).append ((stringsClean_blanks hafter).append hrest))

namespace Json

/-- In the strings of a text of a value no character is below U+0020. -/
theorem Text.stringsClean {value : Json} {text : List Char} (h : Text value text) :
    StringsClean .outside .outside text := by
  induction value using induct generalizing text with
  | null =>
    cases h
    exact stringsClean_outside (by simp)
  | number n =>
    cases h with
    | number hnatural =>
      refine stringsClean_outside fun c hc => ?_
      rintro rfl
      cases hnatural.isDigits.2 _ hc
  | string s =>
    cases h with
    | string hquoted => exact hquoted.stringsClean
  | array items ih =>
    cases h with
    | array hitems =>
      have hclosing : StringsClean .outside .outside [']'] := stringsClean_outside (by simp)
      have hinner := hitems.stringsClean fun item hitem _ => ih item hitem
      exact (hinner.append hclosing).cons (by decide)
  | object members ih =>
    cases h with
    | object hmembers =>
      have hclosing : StringsClean .outside .outside ['\x7d'] := stringsClean_outside (by simp)
      refine ((hmembers.stringsClean fun member hmember part hpart => ?_).append hclosing).cons
        (by decide)
      obtain ⟨hname, hafter, hbefore, hvalue⟩ := hpart
      have hvalue := (stringsClean_blanks hbefore).append (ih _ hmember hvalue)
      exact hname.stringsClean.append
        ((stringsClean_blanks hafter).append (hvalue.cons (by decide)))

/-- **No character below U+0020 stands in a string of a JSON text.** -/
theorem Document.noControl {value : Json} {text : List Char} (h : Document value text) :
    NoControl (stringChars .outside text) := by
  obtain ⟨before, body, after, rfl, hbefore, htext, hafter⟩ := h
  have hclean := (stringsClean_blanks hbefore).append
    (htext.stringsClean.append (stringsClean_blanks hafter))
  have hend : NoControl (stringChars .outside []) := fun c hc => by simp [stringChars] at hc
  have hwhole := hclean [] hend
  rwa [List.append_nil] at hwhole

end Json

end DialogueScript
