/-
# An asset name depends on the words only

A raw name is its words, spaced out: between two words stands a gap of one or more separators, and
there may be gaps at the ends.  `Spaced words text` says so without cutting the text, and every text
is spaced out from exactly one list of words, those that cutting finds (`spaced_iff`).

One equation carries the rest: a separator ends a word and begins none, so what stands before it and
what stands behind it are cut on their own (`words_append_separator`).  A gap of several separators
does the same (`words_append_gap`), and a name is joined from the parts in the same way.
-/
import Mathlib.Logic.ExistsUnique
import DialogueScript.Proofs.Asset

namespace DialogueScript

namespace AssetName

/-! ### Gaps and words -/

/-- A text of separators only. -/
def IsGap (text : List Char) : Prop :=
  ∀ c ∈ text, c = '_' ∨ c = ' '

/-- A text of one character or more, none of them a separator. -/
def IsWord (text : List Char) : Prop :=
  text ≠ [] ∧ ∀ c ∈ text, c ≠ '_' ∧ c ≠ ' '

/-- The text is these words in their order, with gaps between them, and maybe at the ends. -/
inductive Spaced : List (List Char) → List Char → Prop
  | gap {gap} : IsGap gap → Spaced [] gap
  | word {gap word rest words} : IsGap gap → IsWord word → (∀ c ∈ rest.head?, c = '_' ∨ c = ' ') →
      Spaced words rest → Spaced (word :: words) (gap ++ word ++ rest)

theorem isSeparator_eq_false_iff {c : Char} : isSeparator c = false ↔ c ≠ '_' ∧ c ≠ ' ' := by
  simp [isSeparator]

theorem isGap_cons {c : Char} {text : List Char} :
    IsGap (c :: text) ↔ (c = '_' ∨ c = ' ') ∧ IsGap text :=
  List.forall_mem_cons

/-! ### Cutting at gaps -/

/-- **A separator cuts the words before it from those behind it.** -/
theorem words_append_separator {c : Char} (hc : c = '_' ∨ c = ' ') (a b : List Char) :
    words (a ++ c :: b) = words a ++ words b := by
  rw [words, List.splitOnP_append_cons a b (isSeparator_iff.mpr hc), List.filter_append, words,
    words]

theorem words_nil : words [] = [] := by
  rw [words, List.splitOnP_nil]
  rfl

theorem words_gap_append {gap : List Char} (hgap : IsGap gap) (text : List Char) :
    words (gap ++ text) = words text := by
  induction gap with
  | nil => rfl
  | cons c gap ih =>
    obtain ⟨hc, hgap⟩ := isGap_cons.mp hgap
    have hcut := words_append_separator hc [] (gap ++ text)
    rw [words_nil] at hcut
    exact hcut.trans (ih hgap)

theorem words_eq_nil_of_isGap {gap : List Char} (hgap : IsGap gap) : words gap = [] := by
  rw [← List.append_nil gap, words_gap_append hgap, words_nil]

/-- **So does a gap**, however long it is, unless it is empty. -/
theorem words_append_gap {gap : List Char} (hgap : IsGap gap) (hne : gap ≠ []) (a b : List Char) :
    words (a ++ gap ++ b) = words a ++ words b := by
  obtain ⟨c, gap, rfl⟩ := List.exists_cons_of_ne_nil hne
  obtain ⟨hc, hgap⟩ := isGap_cons.mp hgap
  rw [List.append_assoc, List.cons_append, words_append_separator hc, words_gap_append hgap]

theorem words_append_of_isGap {gap : List Char} (hgap : IsGap gap) (text : List Char) :
    words (text ++ gap) = words text := by
  by_cases hne : gap = []
  · rw [hne, List.append_nil]
  · have hcut := words_append_gap hgap hne text []
    rwa [List.append_nil, words_nil, List.append_nil] at hcut

theorem words_of_isWord {word : List Char} (h : IsWord word) : words word = [word] :=
  words_eq_singleton h.1 fun c hc => isSeparator_eq_false_iff.mpr (h.2 c hc)

/-! ### Texts and their words -/

/-- The words that a text is spaced out from are those that cutting finds. -/
theorem Spaced.words_eq {list : List (List Char)} {text : List Char} (h : Spaced list text) :
    words text = list := by
  induction h with
  | gap hgap => exact words_eq_nil_of_isGap hgap
  | @word gap word rest list hgap hword hrest _ ih =>
    rw [List.append_assoc, words_gap_append hgap]
    cases rest with
    | nil =>
      obtain rfl : [] = list := words_nil.symm.trans ih
      rw [List.append_nil, words_of_isWord hword]
    | cons c rest =>
      have hc := hrest c rfl
      -- the separator that ends the word is not missed by the words behind it
      have hbehind : words rest = list := by
        have hcut := words_append_separator hc [] rest
        rw [words_nil] at hcut
        exact hcut.symm.trans ih
      rw [words_append_separator hc, words_of_isWord hword, hbehind, List.singleton_append]

/-- A separator in front makes the first gap longer. -/
theorem Spaced.cons_separator {list : List (List Char)} {text : List Char} {c : Char}
    (hc : c = '_' ∨ c = ' ') (h : Spaced list text) : Spaced list (c :: text) := by
  cases h with
  | gap hgap => exact .gap (isGap_cons.mpr ⟨hc, hgap⟩)
  | word hgap hword hrest htail => exact .word (isGap_cons.mpr ⟨hc, hgap⟩) hword hrest htail

/-- Any other character in front makes the first word longer, or is a word. -/
theorem Spaced.cons_letter {list : List (List Char)} {text : List Char} {c : Char}
    (hc : c ≠ '_' ∧ c ≠ ' ') (h : Spaced list text) : ∃ list', Spaced list' (c :: text) := by
  have hletter : IsWord [c] := ⟨List.cons_ne_nil _ _, List.forall_mem_singleton.mpr hc⟩
  have hnogap : IsGap [] := fun _ => nofun
  by_cases hfirst : ∀ d ∈ text.head?, d = '_' ∨ d = ' '
  · exact ⟨_, .word hnogap hletter hfirst h⟩
  · cases h with
    | @gap gap hgap =>
      exact absurd (fun d hd => hgap d (List.mem_of_mem_head? hd)) hfirst
    | @word gap word rest words hgap hword hrest htail =>
      cases gap with
      | nil =>
        have hlonger : IsWord (c :: word) :=
          ⟨List.cons_ne_nil _ _, List.forall_mem_cons.mpr ⟨hc, hword.2⟩⟩
        exact ⟨_, .word hnogap hlonger hrest htail⟩
      | cons d gap =>
        refine absurd (fun e he => ?_) hfirst
        obtain rfl : d = e := Option.some.inj he
        exact (isGap_cons.mp hgap).1

theorem exists_spaced (text : List Char) : ∃ list, Spaced list text := by
  induction text with
  | nil => exact ⟨[], .gap fun _ => nofun⟩
  | cons c text ih =>
    obtain ⟨list, hlist⟩ := ih
    by_cases hc : c = '_' ∨ c = ' '
    · exact ⟨list, hlist.cons_separator hc⟩
    · exact hlist.cons_letter (not_or.mp hc)

/-- **Every text is spaced out from the words that cutting finds**, and from no others. -/
theorem spaced_iff {list : List (List Char)} {text : List Char} :
    Spaced list text ↔ words text = list := by
  refine ⟨Spaced.words_eq, ?_⟩
  rintro rfl
  obtain ⟨list, hlist⟩ := exists_spaced text
  rwa [hlist.words_eq]

/-! ### Names -/

theorem ofRaw_eq_of_words_eq {a b : String} (h : words a.toList = words b.toList) :
    ofRaw a = ofRaw b := by
  rw [ofRaw, ofRaw, h]

theorem text_ofRaw_of_words_append {raw a b : String}
    (h : words raw.toList = words a.toList ++ words b.toList) :
    (ofRaw raw).text = (ofRaw a).text ++ (ofRaw b).text := by
  rw [← String.toList_inj, String.toList_append, toList_ofRaw, toList_ofRaw, toList_ofRaw, h,
    List.flatMap_append]

/-- A capital is never lost, so a name is empty only if there is no word. -/
theorem text_ofRaw_eq_empty_iff (raw : String) : (ofRaw raw).text = "" ↔ IsGap raw.toList := by
  rw [← String.toList_eq_nil_iff, toList_ofRaw]
  generalize raw.toList = text
  constructor
  · intro hempty
    obtain ⟨list, hlist⟩ := exists_spaced text
    rw [hlist.words_eq] at hempty
    cases hlist with
    | gap hgap => exact hgap
    | @word gap word rest words hgap hword hrest htail =>
      obtain ⟨c, tail, rfl⟩ := List.exists_cons_of_ne_nil hword.1
      obtain ⟨first, later, hupper, -⟩ := uppercase_head c
      rw [List.flatMap_cons, withCapital, hupper] at hempty
      cases hempty
  · intro hgap
    rw [words_eq_nil_of_isGap hgap]
    rfl

/-- **A name depends on the words of the text only.**  Every text has its words, and the name is the
words one after the other, each with its capital.  So the names of what stands on either side of a
gap make up the name of the whole, and it does not matter which gap it is, nor whether there are
gaps at the ends.  The name is empty exactly if there are no words, and the name of one word is the
upper case of its first character and then the others. -/
theorem ofRaw_joins_words :
    (∀ raw : String, ∃! words, Spaced words raw.toList) ∧
    (∀ (raw : String) words, Spaced words raw.toList →
      (ofRaw raw).text.toList = words.flatMap withCapital) ∧
    (∀ a gap b : String, IsGap gap.toList → gap ≠ "" →
      (ofRaw (a ++ gap ++ b)).text = (ofRaw a).text ++ (ofRaw b).text) ∧
    (∀ a gap gap' b : String, IsGap gap.toList → gap ≠ "" → IsGap gap'.toList → gap' ≠ "" →
      ofRaw (a ++ gap ++ b) = ofRaw (a ++ gap' ++ b)) ∧
    (∀ gap raw gap' : String, IsGap gap.toList → IsGap gap'.toList →
      ofRaw (gap ++ raw ++ gap') = ofRaw raw) ∧
    (∀ raw : String, (ofRaw raw).text = "" ↔ IsGap raw.toList) ∧
    (∀ (raw : String) first rest, IsWord raw.toList → raw.toList = first :: rest →
      (ofRaw raw).text.toList = uppercase first ++ rest) := by
  have hcut : ∀ a gap b : String, IsGap gap.toList → gap ≠ "" →
      words (a ++ gap ++ b).toList = words a.toList ++ words b.toList := by
    intro a gap b hgap hne
    rw [String.toList_append, String.toList_append]
    exact words_append_gap hgap (mt String.toList_eq_nil_iff.mp hne) a.toList b.toList
  refine ⟨fun raw => ?_, fun raw list hlist => ?_, fun a gap b hgap hne => ?_,
    fun a gap gap' b hgap hne hgap' hne' => ?_, fun gap raw gap' hgap hgap' => ?_,
    text_ofRaw_eq_empty_iff, fun raw first rest hword heq => ?_⟩
  · exact ⟨_, spaced_iff.mpr rfl, fun list hlist => hlist.words_eq.symm⟩
  · rw [toList_ofRaw, hlist.words_eq]
  · exact text_ofRaw_of_words_append (hcut a gap b hgap hne)
  · exact ofRaw_eq_of_words_eq ((hcut a gap b hgap hne).trans (hcut a gap' b hgap' hne').symm)
  · apply ofRaw_eq_of_words_eq
    rw [String.toList_append, String.toList_append, List.append_assoc, words_gap_append hgap,
      words_append_of_isGap hgap']
  · rw [toList_ofRaw, words_of_isWord hword, heq, List.flatMap_singleton, withCapital]

/-- Separators at the ends and next to each other bring no words in. -/
example : ofRaw "__court room_ 1" = ⟨"CourtRoom1"⟩ := by decide +kernel

/-- The law at a gap of two kinds of separators between a name that ends in one and a name that
begins with one, and at a word whose capital is two characters. -/
theorem ofRaw_joins_words_of_sharp_s :
    IsGap "_ ".toList ∧ "_ " ≠ "" ∧ IsGap "   ".toList ∧ "   " ≠ "" ∧ IsWord "ßx".toList ∧
      (ofRaw (" a b_" ++ "_ " ++ " ßx")).text = (ofRaw " a b_").text ++ (ofRaw " ßx").text ∧
      ofRaw (" a b_" ++ "_ " ++ " ßx") = ofRaw (" a b_" ++ "   " ++ " ßx") ∧
      ofRaw ("_ " ++ "ßx" ++ "   ") = ofRaw "ßx" ∧
      (ofRaw "ßx").text.toList = ['S', 'S', 'x'] := by
  have hgap : IsGap "_ ".toList := by simp [IsGap]
  have hgap' : IsGap "   ".toList := by simp [IsGap]
  have hword : IsWord "ßx".toList := by simp [IsWord]
  obtain ⟨-, -, happend, hreplace, hends, -, hname⟩ := ofRaw_joins_words
  refine ⟨hgap, by decide, hgap', by decide, hword, happend _ _ _ hgap (by decide),
    hreplace _ _ _ _ hgap (by decide) hgap' (by decide), hends _ _ _ hgap hgap', ?_⟩
  rw [hname "ßx" 'ß' ['x'] hword rfl]
  decide +kernel

end AssetName

end DialogueScript
