/-
# Letters in either case

Two texts say the same apart from case (`SameText`) if they agree character by character, where an
ASCII letter agrees with itself in its other case and every other character only with itself.  That
is what is tested by comparing lower-case texts (`equalIgnoringAsciiCase_iff`).

The same can be said of bytes (`SameBytes`), and it makes no difference on which side of the encoding
it is said: bytes that agree with those of a text are those of a text that agrees with it
(`exists_utf8_eq`).  For a character below U+0080 is a byte, and all bytes of the others are larger.
-/
import Mathlib.Data.List.Forall2
import DialogueScript.File.Suffix

namespace DialogueScript

/-! ### Characters and their bytes -/

theorem utf8_eq_flatMap (s : String) : utf8 s = s.toList.flatMap String.utf8EncodeChar := by
  have hbytes : s.toByteArray = (s.toList.flatMap String.utf8EncodeChar).toByteArray := by
    rw [← List.utf8Encode, ← String.toByteArray_ofList, String.ofList_toList]
  rw [utf8, hbytes, List.data_toByteArray]

theorem utf8_eq_nil_iff {s : String} : utf8 s = [] ↔ s = "" :=
  utf8_inj (t := "")

theorem ofUtf8?_eq_some_iff {bytes : List UInt8} {s : String} :
    ofUtf8? bytes = some s ↔ bytes = utf8 s := by
  rw [ofUtf8?, String.fromUTF8?]
  constructor
  · intro h
    split at h
    · obtain rfl := Option.some.inj h
      rfl
    · cases h
  · rintro rfl
    exact dif_pos s.isValidUTF8

/-- A character below U+0080 is one byte. -/
theorem utf8EncodeChar_of_lt {c : Char} (h : c.toNat < 0x80) :
    String.utf8EncodeChar c = [UInt8.ofNat c.toNat] :=
  if_pos (Nat.le_of_lt_succ h)

/-- The bytes of any other character are larger. -/
theorem le_of_mem_utf8EncodeChar {c : Char} (h : 0x80 ≤ c.toNat) {b : UInt8}
    (hb : b ∈ String.utf8EncodeChar c) : 0x80 ≤ b.toNat := by
  have hlarge : ¬ c.val.toNat ≤ 127 := Nat.not_le.mpr h
  unfold String.utf8EncodeChar at hb
  simp only [if_neg hlarge] at hb
  split at hb
  · simp only [List.mem_cons, List.not_mem_nil, or_false] at hb
    rcases hb with rfl | rfl <;> simp only [UInt8.toNat_ofNat'] <;> omega
  · split at hb
    · simp only [List.mem_cons, List.not_mem_nil, or_false] at hb
      rcases hb with rfl | rfl | rfl <;> simp only [UInt8.toNat_ofNat'] <;> omega
    · simp only [List.mem_cons, List.not_mem_nil, or_false] at hb
      rcases hb with rfl | rfl | rfl | rfl <;> simp only [UInt8.toNat_ofNat'] <;> omega

/-- A byte below 0x80 stands in the bytes of a text as the character that it is. -/
theorem ofNat_toNat_mem_utf8_iff {c : Char} (h : c.toNat < 0x80) {s : String} :
    UInt8.ofNat c.toNat ∈ utf8 s ↔ c ∈ s.toList := by
  rw [utf8_eq_flatMap, List.mem_flatMap]
  constructor
  · rintro ⟨d, hd, hmem⟩
    by_cases hsmall : d.toNat < 0x80
    · rw [utf8EncodeChar_of_lt hsmall, List.mem_singleton] at hmem
      have hcode := congrArg UInt8.toNat hmem
      simp only [UInt8.toNat_ofNat'] at hcode
      have heq : c = d := Char.toNat_inj.mp (by omega)
      exact heq ▸ hd
    · have hlarge := le_of_mem_utf8EncodeChar (Nat.le_of_not_lt hsmall) hmem
      simp only [UInt8.toNat_ofNat'] at hlarge
      omega
  · exact fun hc => ⟨c, hc, by rw [utf8EncodeChar_of_lt h]; exact List.mem_singleton_self _⟩

/-! ### Agreement apart from case -/

/-- One code point, or those of an ASCII letter in its two cases. -/
def SameLetter (m n : Nat) : Prop :=
  m = n ∨ 0x41 ≤ m ∧ m ≤ 0x5A ∧ n = m + 0x20 ∨ 0x41 ≤ n ∧ n ≤ 0x5A ∧ m = n + 0x20

namespace SameLetter

variable {m n k : Nat}

theorem refl (n : Nat) : SameLetter n n :=
  .inl rfl

theorem symm (h : SameLetter m n) : SameLetter n m := by
  unfold SameLetter at h ⊢
  omega

theorem trans (h : SameLetter m n) (h' : SameLetter n k) : SameLetter m k := by
  unfold SameLetter at h h' ⊢
  omega

/-- What is no ASCII letter agrees with itself only. -/
theorem eq_of_not_letter (h : SameLetter m n) (hm : m < 0x41 ∨ 0x7A < m) : m = n := by
  unfold SameLetter at h
  omega

theorem lt_iff (h : SameLetter m n) : m < 0x80 ↔ n < 0x80 := by
  unfold SameLetter at h
  omega

end SameLetter

/-- Texts that agree apart from the case of ASCII letters. -/
def SameText (s t : String) : Prop :=
  List.Forall₂ (fun c d : Char => SameLetter c.toNat d.toNat) s.toList t.toList

/-- Bytes that agree apart from the case of ASCII letters. -/
def SameBytes (bytes bytes' : List UInt8) : Prop :=
  List.Forall₂ (fun b b' : UInt8 => SameLetter b.toNat b'.toNat) bytes bytes'

theorem SameText.refl (s : String) : SameText s s :=
  List.forall₂_same.mpr fun c _ => .refl c.toNat

theorem SameText.symm {s t : String} (h : SameText s t) : SameText t s :=
  (h.imp fun _ _ => SameLetter.symm).flip

theorem SameBytes.symm {bytes bytes' : List UInt8} (h : SameBytes bytes bytes') :
    SameBytes bytes' bytes :=
  (h.imp fun _ _ => SameLetter.symm).flip

/-- A byte that is no letter stands in both or in neither. -/
theorem SameBytes.mem {bytes bytes' : List UInt8} (h : SameBytes bytes bytes') {b : UInt8}
    (hb : b.toNat < 0x41) (hmem : b ∈ bytes) : b ∈ bytes' := by
  induction h with
  | nil => cases hmem
  | cons hbyte _ ih =>
    rcases List.mem_cons.mp hmem with rfl | hrest
    · rw [UInt8.toNat_inj.mp (hbyte.eq_of_not_letter (.inl hb))]
      exact List.mem_cons_self
    · exact List.mem_cons_of_mem _ (ih hrest)

/-- Bytes of which none is a letter agree with themselves only. -/
theorem SameBytes.eq {bytes bytes' : List UInt8} (h : SameBytes bytes bytes')
    (hbytes : ∀ b ∈ bytes, b.toNat < 0x41 ∨ 0x7A < b.toNat) : bytes = bytes' := by
  have heq : List.Forall₂ Eq bytes bytes' := by
    refine ((List.forall₂_and_left _ _).mpr ⟨hbytes, h⟩).imp ?_
    rintro b b' ⟨hb, hsame⟩
    exact UInt8.toNat_inj.mp (hsame.eq_of_not_letter hb)
  rwa [List.forall₂_eq_eq_eq] at heq

/-- Bytes that agree can be cut at the same place. -/
theorem exists_append_of_sameBytes {front back bytes : List UInt8}
    (h : SameBytes (front ++ back) bytes) :
    ∃ front' back', bytes = front' ++ back' ∧ SameBytes front front' ∧ SameBytes back back' := by
  refine ⟨bytes.take front.length, bytes.drop front.length, (List.take_append_drop _ _).symm,
    ?_, ?_⟩
  · have hfront := List.forall₂_take front.length h
    rwa [List.take_left] at hfront
  · have hback := List.forall₂_drop front.length h
    rwa [List.drop_left] at hback

theorem SameText.trans {s t u : String} (h : SameText s t) (h' : SameText t u) : SameText s u := by
  unfold SameText at h h' ⊢
  generalize s.toList = s, t.toList = t, u.toList = u at h h' ⊢
  induction h generalizing u with
  | nil =>
    cases h'
    exact .nil
  | cons hchar _ ih =>
    cases h' with
    | cons hchar' hrest' => exact .cons (hchar.trans hchar') (ih _ hrest')

/-- A character that is no ASCII letter stands in both texts or in neither. -/
theorem SameText.mem {s t : String} (h : SameText s t) {c : Char}
    (hc : c.toNat < 0x41 ∨ 0x7A < c.toNat) (hmem : c ∈ s.toList) : c ∈ t.toList := by
  unfold SameText at h
  generalize s.toList = s, t.toList = t at h hmem ⊢
  induction h with
  | nil => cases hmem
  | cons hchar _ ih =>
    rcases List.mem_cons.mp hmem with rfl | hrest
    · rw [Char.toNat_inj.mp (hchar.eq_of_not_letter hc)]
      exact List.mem_cons_self
    · exact List.mem_cons_of_mem _ (ih hrest)

/-- At the same place of two texts that agree, different characters are ASCII letters. -/
theorem SameText.lt_of_ne {before after before' after' : List Char} {c d : Char}
    (h : SameText (String.ofList (before ++ c :: after)) (String.ofList (before' ++ d :: after')))
    (hlength : before.length = before'.length) (hne : c ≠ d) : c.toNat < 0x80 ∧ d.toNat < 0x80 := by
  rw [SameText, String.toList_ofList, String.toList_ofList] at h
  have hbehind := List.forall₂_drop before.length h
  rw [List.drop_left, hlength, List.drop_left] at hbehind
  cases hbehind with
  | cons hchar _ =>
    have hcode : c.toNat ≠ d.toNat := fun heq => hne (Char.toNat_inj.mp heq)
    unfold SameLetter at hchar
    omega

/-! ### Lower case -/

theorem toNat_toLower (c : Char) :
    c.toLower.toNat = if 0x41 ≤ c.toNat ∧ c.toNat ≤ 0x5A then c.toNat + 0x20 else c.toNat := by
  have hupper : (c.val ≥ 'A'.val ∧ c.val ≤ 'Z'.val) ↔ 0x41 ≤ c.toNat ∧ c.toNat ≤ 0x5A := Iff.rfl
  by_cases h : 0x41 ≤ c.toNat ∧ c.toNat ≤ 0x5A
  · have hsum : (c.val + ('a'.val - 'A'.val)).toNat = c.val.toNat + 0x20 := by
      rw [UInt32.toNat_add]
      exact Nat.mod_eq_of_lt (Nat.lt_of_le_of_lt (Nat.add_le_add_right h.2 0x20) (by decide))
    rw [if_pos h]
    exact (congrArg Char.toNat (dif_pos (hupper.mpr h))).trans hsum
  · rw [if_neg h]
    exact congrArg Char.toNat (dif_neg (mt hupper.mp h))

theorem toLower_eq_iff {c d : Char} : c.toLower = d.toLower ↔ SameLetter c.toNat d.toNat := by
  rw [← Char.toNat_inj, toNat_toLower, toNat_toLower, SameLetter]
  split <;> split <;> omega

theorem equalIgnoringAsciiCase_iff {s t : String} :
    equalIgnoringAsciiCase s t = true ↔ SameText s t := by
  rw [equalIgnoringAsciiCase, beq_iff_eq, ← List.forall₂_eq_eq_eq, List.forall₂_map_left_iff,
    List.forall₂_map_right_iff]
  simp only [toLower_eq_iff, SameText]

/-! ### Bytes of texts -/

/-- Bytes that agree with those of a character are those of a character that agrees with it. -/
theorem exists_utf8EncodeChar_eq {c : Char} {bytes : List UInt8}
    (h : SameBytes (String.utf8EncodeChar c) bytes) :
    ∃ d : Char, bytes = String.utf8EncodeChar d ∧ SameLetter c.toNat d.toNat := by
  by_cases hsmall : c.toNat < 0x80
  · -- one byte, which is the code point of a character again
    rw [utf8EncodeChar_of_lt hsmall] at h
    obtain ⟨b, rest, hbyte, hrest, rfl⟩ := List.forall₂_cons_left_iff.mp h
    obtain rfl := List.forall₂_nil_left_iff.mp hrest
    rw [UInt8.toNat_ofNat', Nat.mod_eq_of_lt (Nat.lt_trans hsmall (by decide))] at hbyte
    have hb : b.toNat < 0x80 := hbyte.lt_iff.mp hsmall
    have hcode : (Char.ofNat b.toNat).toNat = b.toNat := by
      rw [Char.ofNat, dif_pos (.inl (Nat.lt_trans hb (by decide)))]
      rfl
    refine ⟨Char.ofNat b.toNat, ?_, by rwa [hcode]⟩
    rw [utf8EncodeChar_of_lt (by rwa [hcode]), hcode, UInt8.ofNat_toNat]
  · -- no byte is that of a letter
    have hlarge : ∀ b ∈ String.utf8EncodeChar c, b.toNat < 0x41 ∨ 0x7A < b.toNat :=
      fun _ hb => .inr (Nat.lt_of_lt_of_le (by decide)
        (le_of_mem_utf8EncodeChar (Nat.le_of_not_lt hsmall) hb))
    exact ⟨c, (h.eq hlarge).symm, .refl _⟩

theorem exists_utf8_eq {s : String} {bytes : List UInt8} (h : SameBytes (utf8 s) bytes) :
    ∃ t, bytes = utf8 t ∧ SameText s t := by
  -- along the characters of the text, for its bytes are those of its characters
  have hchars : ∀ chars : List Char, ∀ {bytes}, SameBytes (chars.flatMap String.utf8EncodeChar) bytes →
      ∃ chars' : List Char, bytes = chars'.flatMap String.utf8EncodeChar ∧
        List.Forall₂ (fun c d : Char => SameLetter c.toNat d.toNat) chars chars' := by
    intro chars
    induction chars with
    | nil =>
      intro bytes h
      exact ⟨[], List.forall₂_nil_left_iff.mp h, .nil⟩
    | cons c chars ih =>
      intro bytes h
      rw [List.flatMap_cons] at h
      obtain ⟨first, rest, rfl, hfirst, hrest⟩ := exists_append_of_sameBytes h
      obtain ⟨d, rfl, hchar⟩ := exists_utf8EncodeChar_eq hfirst
      obtain ⟨chars', rfl, hsame⟩ := ih hrest
      exact ⟨d :: chars', rfl, .cons hchar hsame⟩
  rw [utf8_eq_flatMap] at h
  obtain ⟨chars', rfl, hsame⟩ := hchars s.toList h
  refine ⟨String.ofList chars', ?_, ?_⟩
  · rw [utf8_eq_flatMap, String.toList_ofList]
  · rw [SameText, String.toList_ofList]
    exact hsame

end DialogueScript
