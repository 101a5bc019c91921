import ErrorIntake.Text.Utf8

/-!
# JSON texts as octets

Octets that are no UTF-8 are let pass in the strings of a JSON text that nobody reads.  So they are
given as a text in which each octet that belongs to no character is spelled by an escape that no
text has: where a string is read it has no text then, and outside of strings nothing can be read.
-/

namespace ErrorIntake.Json

/-- The character that some octets begin with, and how many octets it takes. -/
def leadingChar? (bytes : Bytes) : Option (Char × Nat) :=
  [1, 2, 3, 4].findSome? fun size =>
    match (Text.ofBytes? (bytes.take size)).map String.toList with
    | some [c] => some (c, size)
    | _ => none

/-- What stands for an octet that belongs to no character: a surrogate, which is alone because of
    the letters around it. -/
def strayOctet : List Char := "x\\ud800x".toList

/-- The characters of some octets behind so many that belong to the character before them. -/
def charsOfBytes : (taken : Nat) → Bytes → List Char
  | _, [] => []
  | taken + 1, _ :: rest => charsOfBytes taken rest
  | 0, b :: rest =>
    match leadingChar? (b :: rest) with
    | some (c, size) => c :: charsOfBytes (size - 1) rest
    | none => strayOctet ++ charsOfBytes 0 rest

/-- The text of some octets, in which those that are no UTF-8 are spelled. -/
def textOfBytes (bytes : Bytes) : String :=
  (Text.ofBytes? bytes).getD (String.ofList (charsOfBytes 0 bytes))

@[simp] theorem textOfBytes_toBytes (s : String) : textOfBytes (Text.toBytes s) = s := by
  simp [textOfBytes]

end ErrorIntake.Json
