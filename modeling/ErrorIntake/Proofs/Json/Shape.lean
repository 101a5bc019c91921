import ErrorIntake.Json.Value
import ErrorIntake.Proofs.Json.Number

/-!
# What stands inside a value

Values are trees whose inner nodes are arrays and objects.  `Value.induct` is their induction, and
`depth` counts how many containers stand inside one another.  `ReadsBack` and `OpensPlainly` are what
it takes, of every part, to read a printed value back.
-/

namespace ErrorIntake.Json.Value

/-- What holds of leaves, and of containers if it holds of what they contain, holds of every
    value. -/
theorem induct {motive : Value → Prop} (null : motive .null) (bool : ∀ b, motive (.bool b))
    (number : ∀ n, motive (.number n)) (string : ∀ s, motive (.string s))
    (array : ∀ elements, (∀ v ∈ elements, motive v) → motive (.array elements))
    (object : ∀ members, (∀ m ∈ members, motive m.2) → motive (.object members)) (v : Value) :
    motive v := by
  refine @Value.rec motive (fun vs => ∀ v ∈ vs, motive v) (fun ms => ∀ m ∈ ms, motive m.2)
    (fun m => motive m.2) null bool number string array object ?_ ?_ ?_ ?_ ?_ v
  · intro v member
    cases member
  · intro first rest ofFirst ofRest v member
    rcases List.mem_cons.1 member with rfl | member
    · exact ofFirst
    · exact ofRest v member
  · intro m member
    cases member
  · intro first rest ofFirst ofRest m member
    rcases List.mem_cons.1 member with rfl | member
    · exact ofFirst
    · exact ofRest m member
  · exact fun _ _ ofValue => ofValue

/-! ## Depth -/

mutual

/-- How many containers stand inside one another. -/
def depth : Value → Nat
  | .array elements => elementsDepth elements + 1
  | .object members => membersDepth members + 1
  | _ => 0

/-- The depth of the deepest of some elements. -/
def elementsDepth : List Value → Nat
  | [] => 0
  | v :: rest => max v.depth (elementsDepth rest)

/-- The depth of the deepest of some members. -/
def membersDepth : List (String × Value) → Nat
  | [] => 0
  | (_, v) :: rest => max v.depth (membersDepth rest)

end

@[simp] theorem depth_array_le {elements : List Value} {n : Nat} :
    (array elements).depth ≤ n + 1 ↔ ∀ v ∈ elements, v.depth ≤ n := by
  rw [depth, Nat.add_le_add_iff_right]
  induction elements with
  | nil => simp [elementsDepth]
  | cons v rest ih =>
    rw [elementsDepth, Nat.max_le, ih]
    simp

@[simp] theorem depth_object_le {members : List (String × Value)} {n : Nat} :
    (object members).depth ≤ n + 1 ↔ ∀ m ∈ members, m.2.depth ≤ n := by
  rw [depth, Nat.add_le_add_iff_right]
  induction members with
  | nil => simp [membersDepth]
  | cons m rest ih =>
    rw [membersDepth, Nat.max_le, ih]
    simp

/-! ## Values that reading gives -/

/-- The text of a double stands for the double. -/
def ReadsBack : Value → Prop
  | .number (.float x) => (Number.float x).ReadsBack
  | _ => True

instance : DecidablePred ReadsBack
  | .number (.float x) => inferInstanceAs (Decidable (Number.float x).ReadsBack)
  | .number (.integer _) => .isTrue trivial
  | .null | .bool _ | .string _ | .array _ | .object _ => .isTrue trivial

/-- An object does not open with the key of embedded texts. -/
def OpensPlainly : Value → Prop
  | .object ((key, _) :: _) => key ≠ embeddingKey
  | _ => True

instance : DecidablePred OpensPlainly
  | .object ((key, _) :: _) => inferInstanceAs (Decidable (key ≠ embeddingKey))
  | .object [] => .isTrue trivial
  | .null | .bool _ | .string _ | .array _ | .number _ => .isTrue trivial

end ErrorIntake.Json.Value
