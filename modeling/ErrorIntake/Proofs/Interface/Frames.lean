import ErrorIntake.Interface.Basic
import ErrorIntake.Proofs.Digest.Digits
import Mathlib.Data.List.Infix
import Mathlib.Order.Defs.LinearOrder

/-!
# What fingerprints tell

A frame is told by three inputs: its module, its usable filename and its tail.  Its fingerprint
depends on nothing else, and a change of one of the three changes the text that is digested.  A
stacktrace is told by those fingerprints of its frames that are not empty: they all have one length,
so that their concatenation loses none of them.
-/

namespace ErrorIntake

/-! ## Parts with colons -/

/-- Parts with a colon before each of them. -/
def marked (parts : List String) : List Char := parts.flatMap fun part => ':' :: part.toList

theorem marked_append (parts parts' : List String) :
    marked (parts ++ parts') = marked parts ++ marked parts' := List.flatMap_append

/-- Colons between the parts are colons before them but for the first. -/
theorem marked_eq_intercalate {parts : List String} (filled : parts ≠ []) :
    marked parts = ':' :: (String.intercalate ":" parts).toList := by
  induction parts with
  | nil => exact absurd rfl filled
  | cons part rest ih =>
    cases rest with
    | nil => simp [marked]
    | cons next rest =>
      have further := ih (List.cons_ne_nil next rest)
      rw [marked, List.flatMap_cons, ← marked, further, String.intercalate_cons_cons,
        String.toList_append, String.toList_append, List.append_assoc]
      rfl

/-- A part that may be missing is known from its mark. -/
theorem marked_toList_injective {part part' : Option String}
    (same : marked part.toList = marked part'.toList) : part = part' := by
  cases part <;> cases part' <;> simp_all [marked, String.toList_inj]

/-! ## Frames -/

namespace Frame

theorem hasScheme_iff {cs : List Char} : hasScheme cs = true ↔ schemeMark <:+: cs := by
  induction cs with
  | nil => simp [hasScheme, schemeMark]
  | cons c cs ih =>
    rw [hasScheme, Bool.or_eq_true, ih, List.infix_cons_iff, List.isPrefixOf_iff_prefix]

theorem usableFilename_eq_some_iff {f : Frame} {name : String} :
    f.usableFilename = some name ↔
      name = f.filename ∧ name ≠ "" ∧ ¬ "://".toList <:+: name.toList := by
  unfold usableFilename
  have scheme : hasScheme f.filename.toList = true ↔ "://".toList <:+: f.filename.toList :=
    hasScheme_iff
  constructor
  · intro used
    split at used
    · cases used
    · next usable =>
      cases used
      rw [Bool.or_eq_true, not_or, String.isEmpty_iff, scheme] at usable
      exact ⟨rfl, usable⟩
  · rintro ⟨rfl, given, noUrl⟩
    rw [if_neg]
    rw [Bool.or_eq_true, not_or, String.isEmpty_iff, scheme]
    exact ⟨given, noUrl⟩

theorem usesContextLine_iff {f : Frame} :
    f.usesContextLine = true ↔ f.contextLine ≠ "" ∧ f.contextLine.utf8ByteSize ≤ 128 ∧
      (f.function = "" ∨ "[Anonymous".toList <+: f.function.toList) := by
  simp only [usesContextLine, Bool.and_eq_true, Bool.not_eq_true', String.isEmpty_eq_false_iff,
    decide_eq_true_eq, Bool.or_eq_true, String.isEmpty_iff, List.isPrefixOf_iff_prefix, and_assoc]
  rfl

theorem anchors_isEmpty_iff {f : Frame} :
    f.anchors.isEmpty = true ↔ f.moduleName = "" ∧ f.usableFilename = none := by
  rw [anchors, List.isEmpty_iff, List.append_eq_nil_iff, Option.toList_eq_nil_iff,
    ite_eq_left_iff]
  simp [String.isEmpty_iff]

/-- The tail of a frame, case by case. -/
theorem tail_eq (f : Frame) :
    f.tail =
      if f.contextLine ≠ "" ∧ f.contextLine.utf8ByteSize ≤ 128 ∧
          (f.function = "" ∨ "[Anonymous".toList <+: f.function.toList) then some f.contextLine
      else if f.moduleName = "" ∧ f.usableFilename = none then none
      else if f.function ≠ "" then some f.function
      else if f.lineno ≠ 0 then some (toString f.lineno)
      else none := by
  unfold tail
  simp only [usesContextLine_iff, anchors_isEmpty_iff, Bool.not_eq_true',
    String.isEmpty_eq_false_iff]

/-- What the fingerprint of a frame reads. -/
structure Inputs where
  moduleName : String
  filename : Option String
  tail : Option String
  deriving DecidableEq

/-- The inputs of a frame. -/
def inputs (f : Frame) : Inputs := ⟨f.moduleName, f.usableFilename, f.tail⟩

namespace Inputs

/-- Two of the three inputs are the same, and the third is another. -/
inductive DifferOnce : Inputs → Inputs → Prop
  | moduleName {name name' : String} {filename tail : Option String} (other : name ≠ name') :
      DifferOnce ⟨name, filename, tail⟩ ⟨name', filename, tail⟩
  | filename {name : String} {filename filename' tail : Option String}
      (other : filename ≠ filename') : DifferOnce ⟨name, filename, tail⟩ ⟨name, filename', tail⟩
  | tail {name : String} {filename tail tail' : Option String} (other : tail ≠ tail') :
      DifferOnce ⟨name, filename, tail⟩ ⟨name, filename, tail'⟩

/-- The module as a part, if it has a name. -/
def modulePart (i : Inputs) : Option String :=
  if i.moduleName = "" then none else some i.moduleName

/-- The inputs that are there, in their order. -/
def parts (i : Inputs) : List String := i.modulePart.toList ++ i.filename.toList ++ i.tail.toList

theorem parts_eq_nil_iff {i : Inputs} :
    i.parts = [] ↔ i.moduleName = "" ∧ i.filename = none ∧ i.tail = none := by
  simp [parts, modulePart]

/-- One other input shows in the parts. -/
theorem DifferOnce.marked_ne {i j : Inputs} (differ : DifferOnce i j) :
    marked i.parts ≠ marked j.parts := by
  intro same
  simp only [parts, marked_append] at same
  cases differ with
  | @moduleName name name' _ _ other =>
    have modules := marked_toList_injective
      (List.append_cancel_right (List.append_cancel_right same))
    by_cases unnamed : name = "" <;> by_cases unnamed' : name' = "" <;>
      simp_all [modulePart]
  | filename other =>
    exact other (marked_toList_injective
      (List.append_cancel_left (List.append_cancel_right same)))
  | tail other => exact other (marked_toList_injective (List.append_cancel_left same))

end Inputs

theorem fingerprintParts_eq (f : Frame) : f.fingerprintParts = f.inputs.parts := by
  rw [fingerprintParts, anchors, Inputs.parts, Inputs.modulePart]
  by_cases unnamed : f.moduleName = "" <;> simp [inputs, unnamed]

/-- The text that is digested for a frame; none for a frame without parts. -/
def digested? (f : Frame) : Option String :=
  if f.fingerprintParts.isEmpty then none else some (String.intercalate ":" f.fingerprintParts)

theorem fingerprint_cases (f : Frame) :
    (f.inputs.parts = [] ∧ f.digested? = none ∧ f.fingerprint = "") ∨
    (f.inputs.parts ≠ [] ∧ ∃ text, f.digested? = some text ∧
      marked f.inputs.parts = ':' :: text.toList ∧ f.fingerprint = Digest.fingerprint text) := by
  unfold digested? fingerprint
  rw [fingerprintParts_eq]
  by_cases none : f.inputs.parts = []
  · exact .inl (by simp [none])
  · refine .inr ⟨none, _, ?_, marked_eq_intercalate none, ?_⟩ <;> simp [none]

theorem fingerprint_eq_digest (f : Frame) :
    f.fingerprint = (f.digested?.map Digest.fingerprint).getD "" := by
  rcases f.fingerprint_cases with ⟨-, none, empty⟩ | ⟨-, text, digested, -, digest⟩
  · rw [none, empty]
    rfl
  · rw [digested, digest]
    rfl

theorem fingerprint_eq_empty_iff {f : Frame} : f.fingerprint = "" ↔ f.inputs.parts = [] := by
  rcases f.fingerprint_cases with ⟨nil, -, empty⟩ | ⟨filled, text, -, -, digest⟩
  · exact iff_of_true empty nil
  · exact iff_of_false (digest ▸ (Digest.isHexDigest_fingerprint text).ne_empty) filled

/-- All fingerprints that are not empty have the same length. -/
theorem isHexDigest_fingerprint {f : Frame} (told : f.fingerprint ≠ "") :
    Text.IsHexDigest f.fingerprint := by
  rcases f.fingerprint_cases with ⟨-, -, empty⟩ | ⟨-, text, -, -, digest⟩
  · exact absurd empty told
  · exact digest ▸ Digest.isHexDigest_fingerprint text

/-- One other input shows in what is digested, or in whether anything is. -/
theorem digested_of_differOnce {f g : Frame} (differ : f.inputs.DifferOnce g.inputs) :
    (∃ text text', f.digested? = some text ∧ g.digested? = some text' ∧ text ≠ text') ∨
      Xor (f.fingerprint = "") (g.fingerprint = "") := by
  have apart := differ.marked_ne
  simp only [fingerprint_eq_empty_iff]
  rcases f.fingerprint_cases with ⟨nil, -, -⟩ | ⟨filled, text, digested, written, -⟩ <;>
    rcases g.fingerprint_cases with ⟨nil', -, -⟩ | ⟨filled', text', digested', written', -⟩
  · exact absurd (by rw [nil, nil']) apart
  · exact .inr (.inl ⟨nil, filled'⟩)
  · exact .inr (.inr ⟨nil', filled⟩)
  · refine .inl ⟨text, text', digested, digested', fun same => apart ?_⟩
    rw [written, written', same]

/-- The fingerprint of a frame reads its module, its usable filename and its tail, and nothing else.
    If one of the three is another, another text is digested, or exactly one of the two frames has
    the empty fingerprint.  That is the fingerprint without all three, and any other is a digest. -/
theorem fingerprint_reads_inputs (f g : Frame) :
    (∀ name, f.usableFilename = some name ↔
      name = f.filename ∧ name ≠ "" ∧ ¬ "://".toList <:+: name.toList) ∧
    (f.tail =
      if f.contextLine ≠ "" ∧ f.contextLine.utf8ByteSize ≤ 128 ∧
          (f.function = "" ∨ "[Anonymous".toList <+: f.function.toList) then some f.contextLine
      else if f.moduleName = "" ∧ f.usableFilename = none then none
      else if f.function ≠ "" then some f.function
      else if f.lineno ≠ 0 then some (toString f.lineno)
      else none) ∧
    f.fingerprint = (f.digested?.map Digest.fingerprint).getD "" ∧
    (f.inputs = g.inputs → f.fingerprint = g.fingerprint) ∧
    (f.inputs.DifferOnce g.inputs →
      (∃ text text', f.digested? = some text ∧ g.digested? = some text' ∧ text ≠ text') ∨
      Xor (f.fingerprint = "") (g.fingerprint = "")) ∧
    (f.fingerprint = "" ↔ f.moduleName = "" ∧ f.usableFilename = none ∧ f.tail = none) ∧
    (f.fingerprint ≠ "" → Text.IsHexDigest f.fingerprint) := by
  refine ⟨fun _ => usableFilename_eq_some_iff, f.tail_eq, f.fingerprint_eq_digest, fun same => ?_,
    digested_of_differOnce, ?_, isHexDigest_fingerprint⟩
  · rw [fingerprint, fingerprint, fingerprintParts_eq, fingerprintParts_eq, same]
  · exact fingerprint_eq_empty_iff.trans Inputs.parts_eq_nil_iff

/-- A frame of a script that was loaded from a URL. -/
def loaded : Frame :=
  { moduleName := "m", filename := "https://a/b.js", function := "[Anonymous function]", lineno := 7
    contextLine := "cb()" }

/-- The same frame of a script from elsewhere, whose function has no name at all. -/
def loadedElsewhere : Frame :=
  { loaded with filename := "http://c/d.js", function := "", lineno := 9, inApp := true }

theorem fingerprint_reads_inputs_loaded :
    loaded.fingerprint = loadedElsewhere.fingerprint ∧
    Xor (({} : Frame).fingerprint = "") (({ contextLine := "cb()" } : Frame).fingerprint = "") := by
  have same : loaded.inputs = loadedElsewhere.inputs := by decide +kernel
  have differ : ({} : Frame).inputs.DifferOnce ({ contextLine := "cb()" } : Frame).inputs :=
    .tail (by decide +kernel)
  obtain ⟨-, -, -, unread, -⟩ := fingerprint_reads_inputs loaded loadedElsewhere
  obtain ⟨-, -, -, -, read, -⟩ := fingerprint_reads_inputs {} { contextLine := "cb()" }
  refine ⟨unread same, (read differ).resolve_left ?_⟩
  rintro ⟨text, -, digested, -⟩
  cases digested

end Frame

/-! ## Stacktraces -/

/-- Texts of one length are known from their concatenation. -/
theorem eq_of_join_eq {n : Nat} (positive : 0 < n) {texts texts' : List String}
    (each : ∀ s ∈ texts, s.length = n) (each' : ∀ s ∈ texts', s.length = n)
    (same : String.join texts = String.join texts') : texts = texts' := by
  have sizes {l : List String} (each : ∀ s ∈ l, s.length = n) :
      (l.map String.toList).map List.length = List.replicate l.length n := by
    rw [List.map_map, List.eq_replicate_iff]
    exact ⟨List.length_map _, by simpa [String.length_toList] using each⟩
  have joined : (texts.map String.toList).flatten = (texts'.map String.toList).flatten := by
    rw [← List.flatMap_def, ← List.flatMap_def, ← String.toList_join, same, String.toList_join]
  have count : texts.length = texts'.length := by
    have total := congrArg List.length joined
    rw [List.length_flatten, List.length_flatten, sizes each, sizes each', List.sum_replicate_nat,
      List.sum_replicate_nat] at total
    exact Nat.eq_of_mul_eq_mul_right positive total
  refine List.map_injective_iff.2 (fun _ _ => String.toList_inj.1)
    (List.eq_iff_flatten_eq.2 ⟨joined, ?_⟩)
  rw [sizes each, sizes each', count]

namespace Stacktrace

/-- The fingerprints of the frames, but for those that are empty. -/
def told (s : Stacktrace) : List String := (s.frames.map Frame.fingerprint).filter (· ≠ "")

/-- Empty fingerprints add nothing. -/
theorem fingerprintText_eq_join_told (s : Stacktrace) : s.fingerprintText = String.join s.told := by
  rw [fingerprintText, told]
  induction s.frames.map Frame.fingerprint with
  | nil => rfl
  | cons text rest ih =>
    by_cases empty : text = ""
    · rw [List.filter_cons_of_neg (by simpa using empty), ← ih, String.join_cons, empty,
        String.empty_append]
    · rw [List.filter_cons_of_pos (by simpa using empty), String.join_cons, String.join_cons, ih]

theorem length_told {s : Stacktrace} : ∀ text ∈ s.told, text.length = 32 := by
  intro text member
  obtain ⟨stands, told⟩ := List.mem_filter.1 member
  obtain ⟨f, -, rfl⟩ := List.mem_map.1 stands
  exact (Frame.isHexDigest_fingerprint (of_decide_eq_true told)).1

/-- The text that is digested for a stacktrace tells the fingerprints of its frames, but for empty
    ones.  So frames with an empty fingerprint may stand anywhere, or be left out, and no other
    frames are ever confused.  An exception has the fingerprint of its stacktrace. -/
theorem fingerprintText_tells_frames (s t : Stacktrace) :
    s.fingerprint = Digest.fingerprint s.fingerprintText ∧
    (s.fingerprintText = t.fingerprintText ↔ s.told = t.told) ∧
    (s.frames.filter (fun f => f.fingerprint ≠ "") = t.frames.filter (fun f => f.fingerprint ≠ "") →
      s.fingerprint = t.fingerprint) ∧
    ∀ e : Exception, e.stacktrace = some s → e.fingerprint = s.fingerprint := by
  refine ⟨rfl, ⟨fun same => ?_, fun same => ?_⟩, fun same => ?_, fun e nested => ?_⟩
  · rw [fingerprintText_eq_join_told, fingerprintText_eq_join_told] at same
    exact eq_of_join_eq (by decide) length_told length_told same
  · rw [fingerprintText_eq_join_told, fingerprintText_eq_join_told, same]
  · have told : s.told = t.told := by
      rw [told, told, List.filter_map, List.filter_map]
      exact congrArg (List.map Frame.fingerprint) same
    rw [fingerprint, fingerprint, fingerprintText_eq_join_told, fingerprintText_eq_join_told, told]
  · rw [Exception.fingerprint, nested]

/-- A frame with a name between two that have nothing to be told by. -/
def padded : Stacktrace :=
  ⟨[{ lineno := 3 }, Frame.loaded, { filename := "https://a/b.js", function := "f" }]⟩

theorem fingerprintText_tells_frames_padded :
    padded.fingerprint = (⟨[Frame.loaded]⟩ : Stacktrace).fingerprint ∧
    ({ type := "E", stacktrace := some padded } : Exception).fingerprint = padded.fingerprint ∧
    padded.fingerprintText ≠ (⟨[Frame.loaded, Frame.loaded]⟩ : Stacktrace).fingerprintText := by
  have first : ({ lineno := 3 } : Frame).fingerprint = "" := by decide +kernel
  have last : ({ filename := "https://a/b.js", function := "f" } : Frame).fingerprint = "" := by
    decide +kernel
  have told : Frame.loaded.fingerprint ≠ "" :=
    mt Frame.fingerprint_eq_empty_iff.1 (by decide +kernel)
  obtain ⟨-, -, idle, nested⟩ := fingerprintText_tells_frames padded ⟨[Frame.loaded]⟩
  obtain ⟨-, tells, -⟩ := fingerprintText_tells_frames padded ⟨[Frame.loaded, Frame.loaded]⟩
  refine ⟨idle ?_, nested _ rfl, mt tells.1 ?_⟩
  · simp [padded, first, last, told]
  · simp [Stacktrace.told, padded, first, last, told]

end Stacktrace

end ErrorIntake
