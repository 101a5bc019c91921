import ErrorIntake.Interface.Basic
import ErrorIntake.Json.Canonical

/-!
# Interfaces are canonical

What is read as an interface has a canonical value: its free parts were read themselves, and its
numbers fit 64 bits.
-/

namespace ErrorIntake

open Json (Tree Value)
open Json.Value (isCanonical_string isCanonical_bool isCanonical_ofInt isCanonical_array isCanonical_strings
  isCanonical_ofTexts isCanonical_ofTable)

/-! ## Frames and stacktraces -/

/-- What holds of every frame that was read. -/
structure Frame.IsCanonical (f : Frame) : Prop where
  lineno : IsInt64 f.lineno
  colno : IsInt64 f.colno
  vars : f.vars.Each Value.IsCanonical

theorem Frame.isCanonical_of_ofTree? {room : Nat} {t : Tree} {f : Frame}
    (read : Frame.ofTree? room t = some f) : f.IsCanonical := by
  cases room with
  | zero => cases read
  | succ room =>
    simp only [Frame.ofTree?, Option.bind_eq_bind, Option.bind_eq_some_iff] at read
    obtain ⟨members, _, absPath, _, filename, _, function, _, moduleName, _, lineno, isLine, colno,
      isColumn, contextLine, _, preContext, _, postContext, _, inApp, _, vars, isVars, same⟩ := read
    cases same
    exact
      { lineno := Tree.lenient?_spec (fun _ _ => Tree.int64?_range) (by decide) isLine
        colno := Tree.lenient?_spec (fun _ _ => Tree.int64?_range) (by decide) isColumn
        vars := Tree.optional?_spec (fun _ _ => Value.isCanonical_of_ofTree?)
          (Value.each_null.2 trivial) isVars }

theorem Frame.IsCanonical.toValue {f : Frame} (h : f.IsCanonical) :
    f.toValue.Each Value.IsCanonical := by
  refine isCanonical_ofTable (List.forall_mem_append.2 ⟨?_, ?_⟩)
  · simp [isCanonical_string, isCanonical_bool, isCanonical_ofInt h.lineno,
      isCanonical_ofInt h.colno, isCanonical_strings, -Value.each_string, -Value.each_array,
      -Value.each_bool]
  · intro e he
    split at he
    · cases he
    · rw [List.mem_singleton.1 he]
      exact h.vars

/-- All frames of the stacktrace are canonical. -/
def Stacktrace.IsCanonical (s : Stacktrace) : Prop := ∀ f ∈ s.frames, f.IsCanonical

theorem Stacktrace.isCanonical_of_ofTree? {room : Nat} {t : Tree} {s : Stacktrace}
    (read : Stacktrace.ofTree? room t = some s) : s.IsCanonical := by
  cases room with
  | zero => cases read
  | succ room =>
    simp only [Stacktrace.ofTree?, Option.bind_eq_bind, Option.bind_eq_some_iff] at read
    obtain ⟨members, _, frames, isFrames, same⟩ := read
    cases same
    refine Tree.lenient?_spec (p := fun frames : List Frame => ∀ f ∈ frames, f.IsCanonical)
      (fun t frames read => ?_) (by simp) isFrames
    cases room with
    | zero => cases read
    | succ room => exact Tree.list?_spec (fun _ _ => Frame.isCanonical_of_ofTree?) read

theorem Stacktrace.IsCanonical.toValue {s : Stacktrace} (h : s.IsCanonical) :
    s.toValue.Each Value.IsCanonical := by
  refine Value.each_object.2 ⟨List.pairwise_singleton _ _, fun m hm => ?_⟩
  rw [List.mem_singleton.1 hm]
  refine isCanonical_array fun v hv => ?_
  obtain ⟨f, hf, rfl⟩ := List.mem_map.1 hv
  exact (h f hf).toValue

/-! ## Exceptions and requests -/

/-- The stacktrace of the exception is canonical if there is one. -/
def Exception.IsCanonical (e : Exception) : Prop := ∀ s, e.stacktrace = some s → s.IsCanonical

theorem Exception.isCanonical_of_ofTree? {room : Nat} {t : Tree} {e : Exception}
    (read : Exception.ofTree? room t = some e) : e.IsCanonical := by
  cases room with
  | zero => cases read
  | succ room =>
    simp only [Exception.ofTree?, Option.bind_eq_bind, Option.bind_eq_some_iff] at read
    obtain ⟨members, _, value, _, type, _, moduleName, _, stacktrace, isStacktrace, same⟩ := read
    cases same
    exact Tree.optional?_spec (p := fun trace : Option Stacktrace =>
      ∀ s, trace = some s → s.IsCanonical)
      (fun _ _ => Tree.option?_spec fun _ _ => Stacktrace.isCanonical_of_ofTree?) (by simp)
      isStacktrace

theorem Exception.IsCanonical.toValue {e : Exception} (h : e.IsCanonical) :
    e.toValue.Each Value.IsCanonical := by
  refine isCanonical_ofTable (List.forall_mem_append.2 ⟨?_, ?_⟩)
  · simp [isCanonical_string, -Value.each_string]
  · intro m hm
    cases trace : e.stacktrace with
    | none =>
      rw [trace] at hm
      cases hm
    | some s =>
      rw [trace] at hm
      rw [List.mem_singleton.1 hm]
      exact (h s trace).toValue

/-- What holds of every request that was read. -/
structure Request.IsCanonical (r : Request) : Prop where
  data : r.data.Each Value.IsCanonical
  cookies : r.cookies.Each Value.IsCanonical

theorem Request.isCanonical_of_ofTree? {room : Nat} {t : Tree} {r : Request}
    (read : Request.ofTree? room t = some r) : r.IsCanonical := by
  cases room with
  | zero => cases read
  | succ room =>
    simp only [Request.ofTree?, Option.bind_eq_bind, Option.bind_eq_some_iff] at read
    obtain ⟨members, _, url, _, method, _, queryString, _, headers, _, env, _, data, isData, cookies,
      isCookies, same⟩ := read
    cases same
    exact
      { data := Tree.optional?_spec (fun _ _ => Value.isCanonical_of_ofTree?)
          (Value.each_null.2 trivial) isData
        cookies := Tree.optional?_spec (fun _ _ => Value.isCanonical_of_ofTree?)
          (Value.each_null.2 trivial) isCookies }

theorem Request.IsCanonical.toValue {r : Request} (h : r.IsCanonical) :
    r.toValue.Each Value.IsCanonical := by
  refine isCanonical_ofTable (List.forall_mem_append.2
    ⟨List.forall_mem_append.2 ⟨?_, fun m hm => ?_⟩, fun m hm => ?_⟩)
  · simp [isCanonical_string, isCanonical_ofTexts, -Value.each_string]
  · split at hm
    · cases hm
    · rw [List.mem_singleton.1 hm]
      exact h.data
  · split at hm
    · cases hm
    · rw [List.mem_singleton.1 hm]
      exact h.cookies

/-! ## Interfaces of every kind -/

namespace Interface

/-- What holds of every interface that was read. -/
def IsCanonical : Interface → Prop
  | .exception e => e.IsCanonical
  | .stacktrace s => s.IsCanonical
  | .request r => r.IsCanonical

theorem IsCanonical.toValue {i : Interface} (h : i.IsCanonical) :
    i.toValue.Each Value.IsCanonical := by
  cases i with
  | exception e => exact Exception.IsCanonical.toValue h
  | stacktrace s => exact Stacktrace.IsCanonical.toValue h
  | request r => exact Request.IsCanonical.toValue h

/-- A decoded interface is canonical and of the kind that was asked for. -/
theorem isCanonical_of_decode? {kind : Kind} {text : String} {i : Interface}
    (read : kind.decode? text = some i) : i.IsCanonical ∧ i.kind = kind := by
  obtain ⟨t, _, read⟩ := Option.bind_eq_some_iff.1 read
  cases kind with
  | exception =>
    obtain ⟨e, found, same⟩ := Option.map_eq_some_iff.1 read
    subst same
    exact ⟨Exception.isCanonical_of_ofTree? found, rfl⟩
  | stacktrace =>
    obtain ⟨s, found, same⟩ := Option.map_eq_some_iff.1 read
    subst same
    exact ⟨Stacktrace.isCanonical_of_ofTree? found, rfl⟩
  | request =>
    obtain ⟨r, found, same⟩ := Option.map_eq_some_iff.1 read
    subst same
    exact ⟨Request.isCanonical_of_ofTree? found, rfl⟩

theorem isCanonical_blank (kind : Kind) : kind.blank.IsCanonical ∧ kind.blank.kind = kind := by
  cases kind with
  | exception => exact ⟨by simp [IsCanonical, Kind.blank, Exception.IsCanonical], rfl⟩
  | stacktrace => exact ⟨by simp [IsCanonical, Kind.blank, Stacktrace.IsCanonical], rfl⟩
  | request => exact ⟨⟨Value.each_null.2 trivial, Value.each_null.2 trivial⟩, rfl⟩

end Interface

end ErrorIntake
