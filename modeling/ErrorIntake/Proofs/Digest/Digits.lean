import ErrorIntake.Digest.Md5
import Mathlib.Data.List.Basic

/-!
# Digests in digits

A digest has sixteen octets whatever the message is, so that every fingerprint that is a digest has
the same length: two small hexadecimal digits for each octet.
-/

namespace ErrorIntake

namespace Text

/-- The text is a digest of sixteen octets in small hexadecimal digits. -/
def IsHexDigest (s : String) : Prop := s.length = 32 ∧ ∀ c ∈ s.toList, c ∈ "0123456789abcdef".toList

theorem hexDigit_mem : ∀ n < 16, hexDigit n ∈ "0123456789abcdef".toList := by decide

/-- Two digits are written for each octet. -/
theorem isHexDigest_hexOfBytes {bytes : Bytes} (length : bytes.length = 16) :
    IsHexDigest (hexOfBytes bytes) := by
  constructor
  · simp [hexOfBytes, length]
  · intro c member
    rw [hexOfBytes, String.toList_ofList] at member
    obtain ⟨b, -, digit⟩ := List.mem_flatMap.1 member
    have bound := b.toNat_lt
    rcases List.mem_pair.1 digit with rfl | rfl
    · exact hexDigit_mem _ (by omega)
    · exact hexDigit_mem _ (Nat.mod_lt _ (by decide))

end Text

namespace Digest

theorem length_md5 (message : Bytes) : (md5 message).length = 16 := by
  simp [md5, littleEndian]

theorem isHexDigest_fingerprint (text : String) : Text.IsHexDigest (fingerprint text) :=
  Text.isHexDigest_hexOfBytes (length_md5 _)

end Digest

theorem Text.IsHexDigest.ne_empty {s : String} (h : Text.IsHexDigest s) : s ≠ "" := by
  rintro rfl
  exact absurd h.1 (by decide)

end ErrorIntake
