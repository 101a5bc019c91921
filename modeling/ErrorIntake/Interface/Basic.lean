import ErrorIntake.Interface.Exception
import ErrorIntake.Interface.Request

/-!
# Interfaces

An interface is a structured part of a submission.  Every kind of interface has a fingerprint, the
name of a template to show it with, and a JSON form.  Three kinds come with the program: exceptions,
stacktraces and requests.  A registry can hold others beside them.
-/

namespace ErrorIntake

open Json (Tree Value)

/-- A structured part of a submission, of one of the kinds that come with the program. -/
inductive Interface
  | exception (e : Exception)
  | stacktrace (s : Stacktrace)
  | request (r : Request)
  deriving Repr

namespace Interface

/-- The kinds of interfaces that come with the program. -/
inductive Kind
  | exception
  | stacktrace
  | request
  deriving DecidableEq, Repr

/-- The interface of a kind with nothing set. -/
def Kind.blank : Kind → Interface
  | .exception => .exception {}
  | .stacktrace => .stacktrace {}
  | .request => .request {}

/-- The interface of a kind in a tree. -/
def Kind.ofTree? (kind : Kind) (t : Tree) : Option Interface :=
  match kind with
  | .exception => (Exception.ofTree? Json.nestingLimit t).map .exception
  | .stacktrace => (Stacktrace.ofTree? Json.nestingLimit t).map .stacktrace
  | .request => (Request.ofTree? Json.nestingLimit t).map .request

/-- The interface of a kind that a JSON text describes. -/
def Kind.decode? (kind : Kind) (text : String) : Option Interface :=
  (Tree.ofText? text).bind kind.ofTree?

/-- The kind of an interface. -/
def kind : Interface → Kind
  | .exception _ => .exception
  | .stacktrace _ => .stacktrace
  | .request _ => .request

/-- What the interface adds to the fingerprint of its event. -/
def fingerprint : Interface → String
  | .exception e => e.fingerprint
  | .stacktrace s => s.fingerprint
  | .request r => r.fingerprint

/-- The template that shows the interface. -/
def template : Interface → String
  | .exception _ => "sentry/partial/interfaces/exception.html"
  | .stacktrace _ => "sentry/partial/interfaces/stacktrace.html"
  | .request _ => "sentry/partial/interfaces/http.html"

/-- The JSON form of an interface. -/
def toValue : Interface → Value
  | .exception e => e.toValue
  | .stacktrace s => s.toValue
  | .request r => r.toValue

/-- The interface that a JSON text describes, of the same kind; the interface itself if the text
    describes none. -/
def decodedFrom (i : Interface) (text : String) : Interface := (i.kind.decode? text).getD i

end Interface

end ErrorIntake
