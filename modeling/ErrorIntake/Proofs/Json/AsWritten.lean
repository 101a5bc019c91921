import ErrorIntake.Proofs.Json.Meaning

/-!
# Values as they are written

A tree has the value that is written there, unless an object in it opens like an embedded text.  The
room that a reader has does not change a value: with more of it, what could be read is read the same.
-/

namespace ErrorIntake.Json

/-- No object in the tree opens like an embedded text. -/
inductive Tree.StandsForItself : Tree → Prop
  | null : StandsForItself .null
  | bool (b : Bool) : StandsForItself (.bool b)
  | number (n : Numeral) : StandsForItself (.number n)
  | string (l : Literal) : StandsForItself (.string l)
  | array {elements : List Tree} (inside : ∀ t ∈ elements, StandsForItself t) :
      StandsForItself (.array elements)
  | object {members : List (Literal × Tree)} (opens : isEmbedding members = false)
      (inside : ∀ m ∈ members, StandsForItself m.2) : StandsForItself (.object members)

namespace Value

variable {embedded embedded' : Option (String → Option Value)} {room room' : Nat}

/-- Elements that are read alike one by one are read alike. -/
theorem ofElements?_congr {ts : List Tree}
    (same : ∀ t ∈ ts, ofTreeWith? embedded room t = ofTreeWith? embedded' room' t) :
    ofElements? embedded room ts = ofElements? embedded' room' ts := by
  induction ts with
  | nil => rfl
  | cons t rest ih =>
    rw [ofElements?, ofElements?, same t List.mem_cons_self,
      ih fun t member => same t (List.mem_cons_of_mem _ member)]

theorem ofMembers?_congr {ts : List (Literal × Tree)}
    (same : ∀ m ∈ ts, ofTreeWith? embedded room m.2 = ofTreeWith? embedded' room' m.2)
    (before : List (String × Value)) :
    ofMembers? embedded room before ts = ofMembers? embedded' room' before ts := by
  induction ts generalizing before with
  | nil => rfl
  | cons m rest ih =>
    have further := ih fun m member => same m (List.mem_cons_of_mem _ member)
    rw [ofMembers?, ofMembers?, same m List.mem_cons_self]
    simp only [further]

/-- A tree that stands for itself has the value that is written there. -/
theorem ofTreeWith?_of_standsForItself {valueOf : String → Option Value} {t : Tree}
    (itself : t.StandsForItself) (room : Nat) :
    ofTreeWith? (some valueOf) room t = ofTreeWith? none room t := by
  induction itself generalizing room with
  | null => rfl
  | bool b => rfl
  | number n => rfl
  | string l => rfl
  | array _ ih =>
    cases room with
    | zero => rfl
    | succ room =>
      rw [ofTreeWith?, ofTreeWith?, ofElements?_congr fun t member => ih t member room]
  | object opens _ ih =>
    cases room with
    | zero => rfl
    | succ room =>
      rw [ofTreeWith?, ofTreeWith?, if_neg (by simp [opens]),
        ofMembers?_congr fun m member => ih m member room]

theorem ofTree?_eq_plainOfTree? {t : Tree} (itself : t.StandsForItself) (room : Nat) :
    ofTree? room t = plainOfTree? room t :=
  ofTreeWith?_of_standsForItself itself room

/-- An object that opens like an embedded text has the value of the text in it. -/
theorem ofTree?_embedding_iff {members : List (Literal × Tree)} (embeds : isEmbedding members = true)
    {v : Value} : ofTree? (room + 1) (.object members) = some v ↔
      ∃ s, embeddedText? members = some s ∧ ofText? s = some v := by
  rw [ofTree?, ofTreeWith?, if_pos embeds, Option.bind_eq_some_iff]

/-! ## Room -/

theorem ofMembers?_mono
    (more : ∀ t v, ofTreeWith? embedded room t = some v → ofTreeWith? embedded room' t = some v)
    {ts : List (Literal × Tree)} {before out : List (String × Value)}
    (read : ofMembers? embedded room before ts = some out) :
    ofMembers? embedded room' before ts = some out := by
  induction ts generalizing before with
  | nil => exact read
  | cons m rest ih =>
    rw [ofMembers?] at read ⊢
    obtain ⟨key, named, read⟩ := Option.bind_eq_some_iff.1 read
    obtain ⟨v, found, read⟩ := Option.bind_eq_some_iff.1 read
    simp only [named, more _ v found, Option.bind_eq_bind, Option.bind_some]
    exact ih read

/-- With more room a tree has the same value. -/
theorem ofTreeWith?_mono (le : room ≤ room') {t : Tree} {v : Value}
    (read : ofTreeWith? embedded room t = some v) : ofTreeWith? embedded room' t = some v := by
  induction room generalizing t v room' with
  | zero =>
    cases t with
    | array ts => cases read
    | object ts => cases read
    | _ => exact read
  | succ room ih =>
    obtain ⟨room', rfl⟩ : ∃ k, room' = k + 1 := ⟨room' - 1, by omega⟩
    have le : room ≤ room' := Nat.le_of_succ_le_succ le
    cases t with
    | array ts =>
      rw [ofTreeWith?, ofElements?_eq_mapM] at read ⊢
      obtain ⟨vs, inside, same⟩ := Option.map_eq_some_iff.1 read
      rw [mapM_eq_some_iff] at inside
      exact Option.map_eq_some_iff.2
        ⟨vs, mapM_eq_some_iff.2 (inside.imp fun _ _ found => ih le found), same⟩
    | object ts =>
      have members {out : List (String × Value)} (inside : ofMembers? embedded room [] ts = some out) :
          ofMembers? embedded room' [] ts = some out :=
        ofMembers?_mono (fun _ _ found => ih le found) inside
      cases embedded with
      | none =>
        obtain ⟨out, inside, same⟩ := Option.map_eq_some_iff.1 read
        exact Option.map_eq_some_iff.2 ⟨out, members inside, same⟩
      | some valueOf =>
        rw [ofTreeWith?] at read ⊢
        split
        · next embeds => rwa [if_pos embeds] at read
        · next plain =>
          rw [if_neg plain] at read
          obtain ⟨out, inside, same⟩ := Option.map_eq_some_iff.1 read
          exact Option.map_eq_some_iff.2 ⟨out, members inside, same⟩
    | _ => exact read

end Value

end ErrorIntake.Json
