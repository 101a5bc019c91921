import ErrorIntake.Interface.Canonical

/-!
# Factories of interfaces

A registry knows no kind of interface by name.  All that it sees of an interface is a `View`, and a
`Factory` makes the views of one kind: the one with nothing set, and those that JSON texts describe.
`Factory.ofKind` makes exceptions, stacktraces and requests; anything else of this form can be
registered beside them.
-/

namespace ErrorIntake.Interface

open Json (Value)

/-- What is seen of an interface, whatever its kind. -/
@[ext] structure View where
  /-- What the interface adds to the fingerprint of its event. -/
  fingerprint : String
  /-- The template that shows the interface. -/
  template : String
  /-- The JSON form of the interface. -/
  toValue : Value
  canonical : toValue.Each Value.IsCanonical

/-- How to make interfaces of one kind. -/
structure Factory where
  /-- The interface with nothing set. -/
  blank : View
  /-- The interface that a JSON text describes. -/
  decode? : String → Option View

/-- What is seen of an exception, a stacktrace or a request. -/
def view (i : Interface) (canonical : i.IsCanonical) : View where
  fingerprint := i.fingerprint
  template := i.template
  toValue := i.toValue
  canonical := canonical.toValue

namespace Factory

/-- The interface that a text describes; that with nothing set if the text describes none. -/
def read (f : Factory) (text : String) : View := (f.decode? text).getD f.blank

/-- The factory of exceptions, of stacktraces or of requests. -/
def ofKind (kind : Kind) : Factory where
  blank := kind.blank.view (isCanonical_blank kind).1
  decode? text := (kind.decode? text).pmap view fun _ decoded => (isCanonical_of_decode? decoded).1

variable {kind : Kind} {text : String}

theorem ofKind_decode?_eq_some_iff {v : View} : (ofKind kind).decode? text = some v ↔
    ∃ (i : Interface) (canonical : i.IsCanonical),
      kind.decode? text = some i ∧ v = i.view canonical :=
  Option.pmap_eq_some_iff

theorem ofKind_decode?_eq_none_iff :
    (ofKind kind).decode? text = none ↔ kind.decode? text = none :=
  Option.pmap_eq_none_iff

/-- What the factory of a kind reads is seen of an interface of that kind: of the one that is
    decoded, or of that with nothing set. -/
theorem exists_ofKind_read (kind : Kind) (text : String) :
    ∃ (i : Interface) (canonical : i.IsCanonical), i.kind = kind ∧
      i = (kind.decode? text).getD kind.blank ∧ (ofKind kind).read text = i.view canonical := by
  rw [read]
  cases decoded : (ofKind kind).decode? text with
  | some v =>
    obtain ⟨i, canonical, found, rfl⟩ := ofKind_decode?_eq_some_iff.1 decoded
    rw [found]
    exact ⟨i, canonical, (isCanonical_of_decode? found).2, rfl, rfl⟩
  | none =>
    rw [ofKind_decode?_eq_none_iff.1 decoded]
    exact ⟨kind.blank, (isCanonical_blank kind).1, (isCanonical_blank kind).2, rfl, rfl⟩

end Factory

end ErrorIntake.Interface
