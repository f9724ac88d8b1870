/-
# The bytes of a text

File names and action names are listed in the order of their UTF-8 bytes, and a file suffix is cut
out of the bytes of a path.  This file holds that view of a text (`utf8`), the way back (`ofUtf8?`),
and the order it gives (`ByteOrder`): total, so that a sorted list is determined by its members.
-/

namespace DialogueScript

/-- The UTF-8 encoding of a text. -/
def utf8 (s : String) : List UInt8 :=
  s.toByteArray.data.toList

/-- The text with the given UTF-8 encoding, if the bytes are valid UTF-8. -/
def ofUtf8? (bytes : List UInt8) : Option String :=
  String.fromUTF8? ⟨bytes.toArray⟩

theorem utf8_inj {s t : String} : utf8 s = utf8 t ↔ s = t := by
  refine ⟨fun h => ?_, fun h => h ▸ rfl⟩
  have hdata : s.toByteArray.data = t.toByteArray.data := Array.toList_inj.mp h
  have hbytes : s.toByteArray = t.toByteArray := ByteArray.ext hdata
  exact String.toByteArray_inj.mp hbytes

theorem utf8_append (s t : String) : utf8 (s ++ t) = utf8 s ++ utf8 t := by
  simp [utf8]

/-! ### Byte order -/

/-- `s` stands before `t` in the order of UTF-8 bytes. -/
def ByteOrder (s t : String) : Prop :=
  utf8 s < utf8 t

instance (s t : String) : Decidable (ByteOrder s t) :=
  inferInstanceAs (Decidable (utf8 s < utf8 t))

theorem ByteOrder.irrefl (s : String) : ¬ ByteOrder s s :=
  List.lt_irrefl _

theorem ByteOrder.trans {s t u : String} (h₁ : ByteOrder s t) (h₂ : ByteOrder t u) :
    ByteOrder s u :=
  List.lt_trans h₁ h₂

/-- Two texts of which neither stands before the other are equal. -/
theorem ByteOrder.eq_of_not {s t : String} (h₁ : ¬ ByteOrder s t) (h₂ : ¬ ByteOrder t s) :
    s = t :=
  utf8_inj.mp (List.le_antisymm (List.not_lt.mp h₂) (List.not_lt.mp h₁))

end DialogueScript
