/-
# What is printed is a text of the value

A value is printed on one line (`compact`) or laid out over many (`pretty`).  Either way the result
is a text of that value and of no other (`document_compact`, `document_pretty`): digits come
without leading zeros, every character of a string is escaped in a way that gives it back, and
between brackets the two layouts differ in white space only (`separated_intercalate`).
-/
import DialogueScript.Proofs.Json.Grammar

namespace DialogueScript

/-! ### Numerals -/

/-- A zero leads no other digit. -/
theorem renderNatural_leading (n : Nat) :
    (renderNatural n).head? = some '0' → renderNatural n = ['0'] := by
  induction n using Nat.strong_induction_on with
  | _ n ih =>
    intro hhead
    by_cases hn : n < 10
    · have hdigit : renderNatural n = [n.digitChar] := Nat.toDigits_of_lt_base hn
      rw [hdigit] at hhead ⊢
      rw [Option.some.inj hhead]
    · -- the first digit is that of the tenth part, which is no zero
      have hsplit : renderNatural n = renderNatural (n / 10) ++ [(n % 10).digitChar] :=
        Nat.toDigits_of_base_le (by decide) (Nat.not_lt.mp hn)
      have htenth_ne : renderNatural (n / 10) ≠ [] := Nat.toDigits_ne_nil
      rw [hsplit, List.head?_append_of_ne_nil _ htenth_ne] at hhead
      have htenth : renderNatural (n / 10) = ['0'] := ih (n / 10) (by omega) hhead
      have hvalue := natural?_renderNatural (n / 10)
      rw [htenth] at hvalue
      have hzero : 0 = n / 10 := Option.some.inj hvalue
      omega

theorem naturalText_renderNatural (n : Nat) : NaturalText n (renderNatural n) where
  isDigits := ⟨Nat.toDigits_ne_nil, fun _ => isDigit_of_mem_renderNatural⟩
  leading := renderNatural_leading n
  value_eq := Nat.ofDigitChars_toDigits (by decide) (by decide)

/-! ### Strings -/

namespace Json

/-- The digits of the long escapes. -/
theorem hexNumber?_hexDigit {n : Nat} (h : n < 0x20) :
    hexNumber? ['0', '0', hexDigit (n / 16), hexDigit (n % 16)] = some n := by
  revert n
  decide

/-- What is written for a character in a string says that character. -/
theorem charText_escape (c : Char) : CharText c (escape c) := by
  unfold escape
  split
  · exact .short rfl
  · exact .short rfl
  · exact .short rfl
  · exact .short rfl
  · exact .short rfl
  · exact .short rfl
  · exact .short rfl
  · next hquote hbackslash _ _ _ _ _ =>
    split
    · next hsmall => exact .unit ⟨rfl, hexNumber?_hexDigit hsmall⟩
    · next hlarge => exact .plain (Nat.not_lt.mp hlarge) hquote hbackslash

theorem quotedText_quote (s : String) : QuotedText s (quote s) := by
  refine .intro ?_
  induction s.toList with
  | nil => exact .nil
  | cons c rest ih => exact .cons (charText_escape c) ih

end Json

/-! ### Lists -/

theorem areBlanks_nil : AreBlanks [] :=
  fun _ hc => absurd hc List.not_mem_nil

theorem separated_intercalate {α : Type} {P : α → List Char → Prop} {xs : List α}
    {parts : List (List Char)} {before between after : List Char} (h : List.Forall₂ P xs parts)
    (hne : parts ≠ []) (hbefore : AreBlanks before) (hbetween : AreBlanks between)
    (hafter : AreBlanks after) :
    Separated P xs (before ++ ((',' :: between).intercalate parts ++ after)) := by
  -- what stands behind a comma is white space before the next member
  induction h generalizing before with
  | nil => exact absurd rfl hne
  | @cons x part xs parts hpart hparts ih =>
    cases hparts with
    | nil =>
      rw [List.intercalate_singleton]
      exact .single hbefore hpart hafter
    | cons =>
      have hothers := ih (List.cons_ne_nil _ _) hbetween
      have hcons := Separated.cons hbefore hpart areBlanks_nil hothers
      rw [List.intercalate_cons_cons]
      simpa only [List.append_assoc, List.cons_append, List.nil_append] using hcons

namespace Json

/-! ### The two layouts -/

theorem compactItems_eq_map (items : List Json) : compactItems items = items.map compact := by
  induction items with
  | nil => rfl
  | cons item items ih => rw [compactItems, ih, List.map_cons]

theorem compactMembers_eq_map (members : List (String × Json)) :
    compactMembers members = members.map fun (key, value) => quote key ++ ':' :: compact value := by
  induction members with
  | nil => rfl
  | cons member members ih => rw [compactMembers, ih, List.map_cons]

theorem layOutItems_eq_map (depth : Nat) (items : List Json) :
    layOutItems depth items = items.map (layOut depth) := by
  induction items with
  | nil => rfl
  | cons item items ih => rw [layOutItems, ih, List.map_cons]

theorem layOutMembers_eq_map (depth : Nat) (members : List (String × Json)) :
    layOutMembers depth members =
      members.map fun (key, value) => quote key ++ ':' :: ' ' :: layOut depth value := by
  induction members with
  | nil => rfl
  | cons member members ih => rw [layOutMembers, ih, List.map_cons]

/-- Each member of a list beside the text that is printed for it. -/
theorem forall₂_map {α : Type} {P : α → List Char → Prop} {print : α → List Char} {xs : List α}
    (h : ∀ x ∈ xs, P x (print x)) : List.Forall₂ P xs (xs.map print) :=
  List.forall₂_map_right_iff.mpr (List.forall₂_same.mpr h)

/-- Between the brackets of the layout on one line. -/
theorem separated_compact {α : Type} {P : α → List Char → Prop} {xs : List α}
    {print : α → List Char} (h : ∀ x ∈ xs, P x (print x)) :
    Separated P xs ([','].intercalate (xs.map print)) := by
  cases xs with
  | nil => exact .nil areBlanks_nil
  | cons x xs =>
    have hlist := separated_intercalate (forall₂_map h) (List.cons_ne_nil _ _) areBlanks_nil
      areBlanks_nil areBlanks_nil
    rwa [List.nil_append, List.append_nil] at hlist

theorem areBlanks_newLine (depth : Nat) : AreBlanks (newLine depth) := by
  intro c hc
  rcases List.mem_cons.mp hc with rfl | hc
  · rfl
  · rw [List.eq_of_mem_replicate hc]
    rfl

/-- Between the brackets of the layout on many lines. -/
theorem separated_block {α : Type} {P : α → List Char → Prop} {xs : List α}
    {print : α → List Char} (opening closing : Char) (depth : Nat) (h : ∀ x ∈ xs, P x (print x)) :
    ∃ text, block opening closing depth (xs.map print) = opening :: (text ++ [closing]) ∧
      Separated P xs text := by
  cases xs with
  | nil => exact ⟨[], rfl, .nil areBlanks_nil⟩
  | cons x xs =>
    have hne : (x :: xs).map print ≠ [] := List.cons_ne_nil _ _
    refine ⟨_, ?_, separated_intercalate (forall₂_map h) hne (areBlanks_newLine (depth + 1))
      (areBlanks_newLine (depth + 1)) (areBlanks_newLine depth)⟩
    rw [block, if_neg hne]
    simp only [List.append_assoc]

theorem text_compact (value : Json) : Text value value.compact := by
  induction value using induct with
  | null => exact .null
  | number n => exact .number (naturalText_renderNatural n)
  | string s => exact .string (quotedText_quote s)
  | array items ih =>
    rw [compact, compactItems_eq_map]
    exact .array (separated_compact ih)
  | object members ih =>
    rw [compact, compactMembers_eq_map]
    refine .object (separated_compact fun member hmember => ?_)
    exact .intro (quotedText_quote member.1) areBlanks_nil areBlanks_nil (ih member hmember)

theorem text_layOut (depth : Nat) (value : Json) : Text value (value.layOut depth) := by
  induction value using induct generalizing depth with
  | null => exact .null
  | number n => exact .number (naturalText_renderNatural n)
  | string s => exact .string (quotedText_quote s)
  | array items ih =>
    rw [layOut, layOutItems_eq_map]
    obtain ⟨text, heq, hitems⟩ :=
      separated_block '[' ']' depth fun item hitem => ih item hitem (depth + 1)
    rw [heq]
    exact .array hitems
  | object members ih =>
    rw [layOut, layOutMembers_eq_map]
    have hmember : ∀ member ∈ members,
        MemberText member (quote member.1 ++ ':' :: ' ' :: layOut (depth + 1) member.2) := by
      intro member hmember
      have hspace : AreBlanks [' '] := by simp [AreBlanks, isJsonBlank]
      exact .intro (quotedText_quote member.1) areBlanks_nil hspace (ih member hmember (depth + 1))
    obtain ⟨text, heq, hmembers⟩ := separated_block '\x7b' '\x7d' depth hmember
    rw [heq]
    exact .object hmembers

/-- A text of a value can stand alone. -/
theorem Text.document {value : Json} {text : List Char} (h : Text value text) :
    Document value text :=
  ⟨[], text, [], (List.append_nil text).symm, areBlanks_nil, h, areBlanks_nil⟩

/-- **On one line a text of the value is printed.** -/
theorem document_compact (value : Json) : Document value value.compact :=
  (text_compact value).document

/-- **On many lines a text of the value is printed.** -/
theorem document_pretty (value : Json) : Document value value.pretty :=
  (text_layOut 0 value).document

end Json

end DialogueScript
