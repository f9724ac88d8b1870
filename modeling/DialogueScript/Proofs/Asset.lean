/-
# Asset names are normal forms

A name in its joined form has no separators in it, so it is one word, and its first character is a
capital already; it is the name of itself (`ofRaw_text`).

A character that cuts names or lines comes into a joined name only from the words themselves
(`mem_of_mem_ofRaw`).  So there is no separator in a name, for there is none in a word, and what
does not stand in the raw name does not stand in the joined one.
-/
import DialogueScript.Asset
import DialogueScript.Proofs.Text.Uppercase

namespace DialogueScript

namespace AssetName

/-! ### Words -/

theorem isSeparator_iff {c : Char} : isSeparator c = true ↔ c = '_' ∨ c = ' ' := by
  simp [isSeparator]

/-- What stands between separators has none in it, and stands in the text. -/
theorem of_mem_splitOnP {p : Char → Bool} {text piece : List Char} (h : piece ∈ text.splitOnP p) :
    (∀ c ∈ piece, p c = false) ∧ piece ⊆ text := by
  induction text generalizing piece with
  | nil =>
    obtain rfl : piece = [] := by simpa using h
    exact ⟨nofun, List.nil_subset _⟩
  | cons c text ih =>
    rw [List.splitOnP_cons_eq_if_modifyHead] at h
    split at h
    · rcases List.mem_cons.mp h with rfl | h
      · exact ⟨nofun, List.nil_subset _⟩
      · exact ⟨(ih h).1, List.subset_cons_of_subset c (ih h).2⟩
    · next hc =>
      -- the character goes to the first piece of the rest
      obtain ⟨first, others, hpieces⟩ := List.exists_cons_of_ne_nil (List.splitOnP_ne_nil p text)
      rw [hpieces] at ih h
      rcases List.mem_cons.mp h with rfl | h
      · obtain ⟨hfirst, hsubset⟩ := ih List.mem_cons_self
        exact ⟨List.forall_mem_cons.mpr ⟨Bool.eq_false_iff.mpr hc, hfirst⟩,
          List.cons_subset_cons c hsubset⟩
      · obtain ⟨hpiece, hsubset⟩ := ih (List.mem_cons_of_mem _ h)
        exact ⟨hpiece, List.subset_cons_of_subset c hsubset⟩

/-- A word is not empty, has no separator in it, and stands in the raw name. -/
theorem of_mem_words {raw word : List Char} (h : word ∈ words raw) :
    word ≠ [] ∧ (∀ c ∈ word, isSeparator c = false) ∧ word ⊆ raw := by
  obtain ⟨hpiece, hne⟩ := List.mem_filter.mp h
  exact ⟨by simpa using hne, of_mem_splitOnP hpiece⟩

/-- Where there is no separator, there is one word. -/
theorem words_eq_singleton {text : List Char} (hne : text ≠ [])
    (h : ∀ c ∈ text, isSeparator c = false) : words text = [text] := by
  rw [words, List.splitOnP_eq_singleton h]
  simp [hne]

/-! ### Joined names -/

theorem toList_ofRaw (raw : String) :
    (ofRaw raw).text.toList = (words raw.toList).flatMap withCapital :=
  String.toList_ofList

/-- What cuts names and lines stands in a joined name only where it stands in a word. -/
theorem mem_of_mem_ofRaw {raw : String} {c : Char} (hc : c ∈ cuttingChars)
    (h : c ∈ (ofRaw raw).text.toList) : ∃ word ∈ words raw.toList, c ∈ word := by
  rw [toList_ofRaw] at h
  obtain ⟨word, hword, hmem⟩ := List.mem_flatMap.mp h
  refine ⟨word, hword, ?_⟩
  cases word with
  | nil => cases hmem
  | cons first rest =>
    rcases List.mem_append.mp hmem with hcapital | hrest
    · obtain rfl := eq_of_mem_uppercase hc hcapital
      exact List.mem_cons_self
    · exact List.mem_cons_of_mem _ hrest

theorem not_mem_ofRaw {raw : String} {c : Char} (hc : c ∈ cuttingChars)
    (h : isSeparator c = true ∨ c ∉ raw.toList) : c ∉ (ofRaw raw).text.toList := by
  intro hmem
  obtain ⟨word, hword, hcword⟩ := mem_of_mem_ofRaw hc hmem
  obtain ⟨-, hseparator, hsubset⟩ := of_mem_words hword
  rcases h with hc | hc
  · rw [hseparator c hcword] at hc
    cases hc
  · exact hc (hsubset hcword)

/-- There is no separator in a joined name. -/
theorem isSeparator_eq_false {raw : String} {c : Char} (h : c ∈ (ofRaw raw).text.toList) :
    isSeparator c = false := by
  rw [Bool.eq_false_iff]
  intro hc
  have hcutting : c ∈ cuttingChars := by
    rcases isSeparator_iff.mp hc with rfl | rfl
    · exact List.mem_cons_self
    · exact List.mem_cons_of_mem _ List.mem_cons_self
  exact not_mem_ofRaw hcutting (.inl hc) h

/-- A joined name is empty or begins with a capital. -/
theorem toList_ofRaw_cases (raw : String) :
    (ofRaw raw).text.toList = [] ∨
      ∃ first rest, (ofRaw raw).text.toList = first :: rest ∧ uppercase first = [first] := by
  rw [toList_ofRaw]
  rcases hwords : words raw.toList with - | ⟨word, others⟩
  · exact .inl rfl
  · have hword : word ∈ words raw.toList := hwords ▸ List.mem_cons_self
    obtain ⟨c, tail, rfl⟩ := List.exists_cons_of_ne_nil (of_mem_words hword).1
    obtain ⟨first, later, hupper, hfirst⟩ := uppercase_head c
    refine .inr ⟨first, later ++ tail ++ others.flatMap withCapital, ?_, hfirst⟩
    rw [List.flatMap_cons, withCapital, hupper, List.cons_append, List.cons_append]

/-- **A joined name is the name of itself.** -/
theorem ofRaw_text (raw : String) : ofRaw (ofRaw raw).text = ofRaw raw := by
  have hjoined : (words (ofRaw raw).text.toList).flatMap withCapital
      = (ofRaw raw).text.toList := by
    have hseparator : ∀ c ∈ (ofRaw raw).text.toList, isSeparator c = false :=
      fun _ => isSeparator_eq_false
    rcases toList_ofRaw_cases raw with hnil | ⟨first, rest, heq, hfirst⟩
    · rw [hnil]
      rfl
    · rw [heq] at hseparator ⊢
      rw [words_eq_singleton (List.cons_ne_nil _ _) hseparator, List.flatMap_singleton, withCapital,
        hfirst, List.singleton_append]
  rw [ofRaw, hjoined, String.ofList_toList]

end AssetName

end DialogueScript
