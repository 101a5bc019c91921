import ErrorIntake.Digest.Md5
import ErrorIntake.Json.Decode

/-!
# Stacktraces

A stacktrace is a list of frames, outermost first.  Its fingerprint joins those of its frames.  A
frame is anchored by its module and by its filename, and told apart from its neighbours by a tail:
the line of code when no function is named, else the function, else the line number.  A frame with
neither anchor nor tail has the empty fingerprint, so it adds nothing to that of its stacktrace.
-/

namespace ErrorIntake

open Json (Tree Value)

/-- One frame of a stacktrace. -/
structure Frame where
  absPath : String := ""
  filename : String := ""
  function : String := ""
  moduleName : String := ""
  lineno : Int := 0
  colno : Int := 0
  contextLine : String := ""
  preContext : List String := []
  postContext : List String := []
  inApp : Bool := false
  vars : Value := .null
  deriving Repr, Inhabited

namespace Frame

/-- The longest line of code, in octets, that tells a frame apart. -/
def contextLineLimit : Nat := 128

/-- How the names of functions without a name begin. -/
def anonymousStart : List Char := "[Anonymous".toList

/-- What stands behind the scheme of a URL. -/
def schemeMark : List Char := "://".toList

/-- The text names a scheme, as URLs do. -/
def hasScheme : List Char → Bool
  | [] => false
  | c :: cs => schemeMark.isPrefixOf (c :: cs) || hasScheme cs

/-- The filename, unless it is empty or a URL. -/
def usableFilename (f : Frame) : Option String :=
  if f.filename.isEmpty || hasScheme f.filename.toList then none else some f.filename

/-- The module and the usable filename, where there are any. -/
def anchors (f : Frame) : List String :=
  (if f.moduleName.isEmpty then [] else [f.moduleName]) ++ f.usableFilename.toList

/-- The line of code tells the frame apart: there is one, it is not too long, and no function is
    named. -/
def usesContextLine (f : Frame) : Bool :=
  !f.contextLine.isEmpty && f.contextLine.utf8ByteSize ≤ contextLineLimit &&
    (f.function.isEmpty || anonymousStart.isPrefixOf f.function.toList)

/-- What tells the frame apart.  Only the line of code does so without an anchor. -/
def tail (f : Frame) : Option String :=
  if f.usesContextLine then some f.contextLine
  else if f.anchors.isEmpty then none
  else if !f.function.isEmpty then some f.function
  else if f.lineno ≠ 0 then some (toString f.lineno)
  else none

/-- The texts that the fingerprint is made of. -/
def fingerprintParts (f : Frame) : List String := f.anchors ++ f.tail.toList

/-- The digest of the parts with colons between them; empty without parts. -/
def fingerprint (f : Frame) : String :=
  if f.fingerprintParts.isEmpty then ""
  else Digest.fingerprint (String.intercalate ":" f.fingerprintParts)

/-- The members of a frame in their order. -/
def memberNames : List String :=
  ["abs_path", "filename", "function", "module", "lineno", "colno", "context_line", "pre_context",
   "post_context", "in_app", "vars"]

/-- A frame from JSON; a member left out, or `null`, has its default. -/
def ofTree? : (room : Nat) → Tree → Option Frame
  | 0, _ => none
  | room + 1, t => do
    let members ← t.record? memberNames
    let absPath ← Tree.lenient? Tree.text? "" members "abs_path"
    let filename ← Tree.lenient? Tree.text? "" members "filename"
    let function ← Tree.lenient? Tree.text? "" members "function"
    let moduleName ← Tree.lenient? Tree.text? "" members "module"
    let lineno ← Tree.lenient? Tree.int64? 0 members "lineno"
    let colno ← Tree.lenient? Tree.int64? 0 members "colno"
    let contextLine ← Tree.lenient? Tree.text? "" members "context_line"
    let preContext ← Tree.lenient? (Tree.list? Tree.text?) [] members "pre_context"
    let postContext ← Tree.lenient? (Tree.list? Tree.text?) [] members "post_context"
    let inApp ← Tree.lenient? Tree.bool? false members "in_app"
    let vars ← Tree.optional? (Value.ofTree? room) .null members "vars"
    return { absPath, filename, function, moduleName, lineno, colno, contextLine, preContext,
             postContext, inApp, vars }

/-- The members that a frame is written with; variables that are `null` are left out. -/
def members (f : Frame) : List (String × Value) :=
  [("abs_path", .string f.absPath), ("filename", .string f.filename),
   ("function", .string f.function), ("module", .string f.moduleName),
   ("lineno", .ofInt f.lineno), ("colno", .ofInt f.colno),
   ("context_line", .string f.contextLine),
   ("pre_context", .array (f.preContext.map .string)),
   ("post_context", .array (f.postContext.map .string)), ("in_app", .bool f.inApp)] ++
  (if f.vars.isNull then [] else [("vars", f.vars)])

/-- A frame as JSON. -/
def toValue (f : Frame) : Value := .ofTable (.ofList f.members)

end Frame

/-- The frames of a call, outermost first. -/
structure Stacktrace where
  frames : List Frame := []
  deriving Repr, Inhabited

namespace Stacktrace

/-- The fingerprints of the frames in a row. -/
def fingerprintText (s : Stacktrace) : String := String.join (s.frames.map Frame.fingerprint)

/-- The digest of the fingerprints of the frames. -/
def fingerprint (s : Stacktrace) : String := Digest.fingerprint s.fingerprintText

/-- A stacktrace from JSON. -/
def ofTree? : (room : Nat) → Tree → Option Stacktrace
  | 0, _ => none
  | room + 1, t => do
    let members ← t.record? ["frames"]
    let frames ← Tree.lenient? (frames? room) [] members "frames"
    return { frames }
where
  /-- The frames of a stacktrace from JSON. -/
  frames? : (room : Nat) → Tree → Option (List Frame)
    | 0, _ => none
    | room + 1, t => t.list? (Frame.ofTree? room)

/-- A stacktrace as JSON. -/
def toValue (s : Stacktrace) : Value := .object [("frames", .array (s.frames.map Frame.toValue))]

end Stacktrace

end ErrorIntake
