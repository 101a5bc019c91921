import ErrorIntake.Interface.Factory
import ErrorIntake.Log
import ErrorIntake.Text.Quoted

/-!
# Claiming interfaces

A registry lists the interfaces that are looked for in a submission, the most important first: by
descending score, and in the order of registration where scores are equal.  Each descriptor claims
the first of its keys that is present and not claimed yet.  Claimed keys leave the payload.  What is
claimed is made by the factory of the descriptor, which can be any.
-/

namespace ErrorIntake

namespace Interface

/-- How to recognise an interface: its own key, other keys, how important it is, and how to make it. -/
structure Descriptor where
  id : String
  aliases : List String
  score : Int
  factory : Factory

/-- An interface found in a submission, with the id and the score of its descriptor. -/
structure Claim where
  id : String
  score : Int
  /-- The key under which it was found. -/
  key : String
  value : View
  /-- What stood under the key described no interface of the kind. -/
  malformed : Bool

namespace Descriptor

/-- The descriptors of the exception, the stacktrace and the request that every client knows. -/
def ofKind : Kind → Descriptor
  | .exception => ⟨"sentry.interfaces.Exception", ["exception"], 2000, .ofKind .exception⟩
  | .stacktrace => ⟨"sentry.interfaces.Stacktrace", ["stacktrace"], 1950, .ofKind .stacktrace⟩
  | .request => ⟨"sentry.interfaces.Http", ["request"], 1000, .ofKind .request⟩

/-- The keys of a descriptor, its id first. -/
def keys (d : Descriptor) : List String := d.id :: d.aliases

/-- The key that a descriptor claims. -/
def key? (d : Descriptor) (payload : Table String) : Option String :=
  d.keys.find? payload.contains

/-- What a descriptor makes of the text under its key. -/
def claim (d : Descriptor) (key text : String) : Claim :=
  match d.factory.decode? text with
  | some value => ⟨d.id, d.score, key, value, false⟩
  | none => ⟨d.id, d.score, key, d.factory.blank, true⟩

/-- The diagnostic text of a descriptor. -/
def debugText (d : Descriptor) : String :=
  "InterfaceDescriptor \x7b id: " ++ Text.quoted d.id ++ ", aliases: " ++
    Text.quotedList d.aliases ++ ", score: " ++ toString d.score ++ ", .. \x7d"

end Descriptor

namespace Claim

/-- The warning about a claim that kept nothing of what was found. -/
def warning? (c : Claim) : Option LogRecord :=
  if c.malformed then some (.malformedInterface c.id c.key) else none

end Claim

/-- The descriptors in force, the most important first. -/
structure Registry where
  descriptors : List Descriptor
  ordered : descriptors.Pairwise fun a b => b.score ≤ a.score

namespace Registry

/-- The descriptors with one more, behind all of at least its score. -/
def place (d : Descriptor) : List Descriptor → List Descriptor
  | [] => [d]
  | first :: rest => if d.score ≤ first.score then first :: place d rest else d :: first :: rest

theorem mem_place {d e : Descriptor} {descriptors : List Descriptor}
    (h : e ∈ place d descriptors) : e = d ∨ e ∈ descriptors := by
  induction descriptors with
  | nil => simpa [place] using h
  | cons first rest ih =>
    simp only [place] at h
    split at h
    · rcases List.mem_cons.1 h with h | h
      · exact .inr (h ▸ List.mem_cons_self)
      · exact (ih h).imp_right (List.mem_cons_of_mem _)
    · rcases List.mem_cons.1 h with h | h
      · exact .inl h
      · exact .inr h

theorem place_ordered (d : Descriptor) {descriptors : List Descriptor}
    (h : descriptors.Pairwise fun a b => b.score ≤ a.score) :
    (place d descriptors).Pairwise fun a b => b.score ≤ a.score := by
  induction descriptors with
  | nil => simp [place]
  | cons first rest ih =>
    obtain ⟨below, orderedRest⟩ := List.pairwise_cons.1 h
    simp only [place]
    split
    · next hle =>
      refine List.pairwise_cons.2 ⟨fun e he => ?_, ih orderedRest⟩
      rcases mem_place he with he | he
      · exact he ▸ hle
      · exact below e he
    · next hgt =>
      refine List.pairwise_cons.2 ⟨fun e he => ?_, h⟩
      have hlt : first.score < d.score := Int.not_le.1 hgt
      rcases List.mem_cons.1 he with he | he
      · exact he ▸ Int.le_of_lt hlt
      · exact Int.le_trans (below e he) (Int.le_of_lt hlt)

/-- The registry without descriptors. -/
def empty : Registry := ⟨[], .nil⟩

/-- The registry with one more descriptor. -/
def register (r : Registry) (d : Descriptor) : Registry :=
  ⟨place d r.descriptors, place_ordered d r.ordered⟩

/-- The registry of some descriptors, registered in their order. -/
def ofList (descriptors : List Descriptor) : Registry := descriptors.foldl register empty

/-- The exception, stacktrace and request that every client knows. -/
def standard : Registry :=
  ofList [.ofKind .exception, .ofKind .stacktrace, .ofKind .request]

/-- The claims of descriptors in turn, and what they leave. -/
def claimInTurn : List Descriptor → Table String → List Claim × Table String
  | [], payload => ([], payload)
  | d :: rest, payload =>
    match d.key? payload with
    | none => claimInTurn rest payload
    | some key =>
      match payload.get? key with
      | none => claimInTurn rest payload
      | some text =>
        let (claims, left) := claimInTurn rest (payload.erase key)
        (d.claim key text :: claims, left)

/-- The interfaces found in a payload, the most important first, and the payload without them. -/
def claim (r : Registry) (payload : Table String) : List Claim × Table String :=
  claimInTurn r.descriptors payload

/-- The diagnostic text of the descriptors. -/
def debugText (r : Registry) : String :=
  "[" ++ String.intercalate ", " (r.descriptors.map Descriptor.debugText) ++ "]"

end Registry

end Interface

end ErrorIntake
