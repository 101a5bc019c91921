/-!
# Bytes and text

Byte strings are lists of octets.  A text becomes its UTF-8 octets; octets become a text exactly
when they are valid UTF-8, and the two directions undo each other.
-/

namespace ErrorIntake

/-- A byte string. -/
abbrev Bytes := List UInt8

namespace Text

/-- The UTF-8 octets of a text. -/
def toBytes (s : String) : Bytes := s.toUTF8.data.toList

/-- The text that a byte string spells, if it is valid UTF-8. -/
def ofBytes? (bytes : Bytes) : Option String := String.fromUTF8? ⟨bytes.toArray⟩

@[simp] theorem ofBytes?_toBytes (s : String) : ofBytes? (toBytes s) = some s := by
  have h : (⟨(toBytes s).toArray⟩ : ByteArray) = s.toUTF8 := by simp [toBytes]
  simp only [ofBytes?, h, String.fromUTF8?, Option.dite_none_right_eq_some]
  exact ⟨s.isValidUTF8, rfl⟩

end Text

end ErrorIntake
