import ErrorIntake.Encoding.Base64
import ErrorIntake.Error
import ErrorIntake.Text.Ascii
import ErrorIntake.Zlib.Inflate

/-!
# How bodies are packed

A body of version 2.0 travels as plain JSON, as a zlib stream when the request says `deflate`, or as
the base64 text of a zlib stream.  A first character `{`, blanks aside, tells plain JSON whatever
the request says.
-/

namespace ErrorIntake.Submission

/-- A submission as it arrives, for a project that it may write to. -/
structure Envelope where
  project : ProjectId
  body : Bytes
  /-- The content encoding that the request tells, if it tells one. -/
  encoding : Option String := none
  deriving DecidableEq, Repr

namespace Envelope

/-- The octet that opens an object. -/
def openBrace : UInt8 := 0x7B

/-- The body is plain JSON: its first octet that is no blank opens an object. -/
def isPlain (body : Bytes) : Bool := body.find? (fun b => !Text.isBlankByte b) == some openBrace

/-- The encoding is `deflate`, blanks around it and capitals aside. -/
def isDeflate : Option String → Bool
  | some encoding => (Text.trim encoding.toList).map Char.toLower == "deflate".toList
  | none => false

/-- The octets of a zlib stream. -/
def inflate (bytes : Bytes) : Except SubmissionError Bytes :=
  match Zlib.decompress? bytes with
  | some body => .ok body
  | none => .error (.encoding "zlib")

/-- The body as the client wrote it. -/
def unpack (e : Envelope) : Except SubmissionError Bytes :=
  if isPlain e.body then .ok e.body
  else if isDeflate e.encoding then inflate e.body
  else
    match Base64.decode? (Text.trimBytes e.body) with
    | some compressed => inflate compressed
    | none => .error (.encoding "base64")

end Envelope

end ErrorIntake.Submission
