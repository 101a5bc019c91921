import ErrorIntake.Digest.Md5
import ErrorIntake.Json.Decode

/-!
# HTTP requests

The request that was served when the error happened.  Its fingerprint joins address, method and
query.  Headers and environment are tables of texts that clients write as objects or as lists of
pairs: what is `null` is dropped, a string is kept, and anything else is kept as its JSON text;
list elements that are no pair with a string before its value are skipped.
-/

namespace ErrorIntake

open Json (Tree Value)

/-- The request that was served. -/
structure Request where
  url : String := ""
  method : String := ""
  queryString : String := ""
  headers : Table String := ∅
  env : Table String := ∅
  data : Value := .null
  cookies : Value := .null
  deriving Repr, Inhabited

namespace Request

/-- The digest of address, method and query in a row. -/
def fingerprint (r : Request) : String := Digest.fingerprint (r.url ++ r.method ++ r.queryString)

/-- A value as the text of a header; nothing for `null`. -/
def textOf? : Value → Option String
  | .null => none
  | .string s => some s
  | v => some v.toText

/-- An entry from a pair of a string and a value. -/
def pair? : Value → Option (String × String)
  | .array [.string key, v] => (textOf? v).map fun text => (key, text)
  | _ => none

/-- A table of texts from an object, a list of pairs, or `null`. -/
def texts? : (room : Nat) → Tree → Option (Table String)
  | _, .null => some ∅
  | room + 1, .object members => do
    let values ← (Tree.object members).table? (Value.ofTree? room)
    return .ofList (values.entries.filterMap fun m => (textOf? m.2).map fun text => (m.1, text))
  | room + 1, .array elements => do
    let values ← elements.mapM (Value.ofTree? room)
    return .ofList (values.filterMap pair?)
  | _, _ => none

/-- The members of a request in their order. -/
def memberNames : List String :=
  ["url", "method", "query_string", "headers", "env", "data", "cookies"]

/-- A request from JSON. -/
def ofTree? : (room : Nat) → Tree → Option Request
  | 0, _ => none
  | room + 1, t => do
    let members ← t.record? memberNames
    let url ← Tree.lenient? Tree.text? "" members "url"
    let method ← Tree.lenient? Tree.text? "" members "method"
    let queryString ← Tree.lenient? Tree.text? "" members "query_string"
    let headers ← Tree.optional? (texts? room) ∅ members "headers"
    let env ← Tree.optional? (texts? room) ∅ members "env"
    let data ← Tree.optional? (Value.ofTree? room) .null members "data"
    let cookies ← Tree.optional? (Value.ofTree? room) .null members "cookies"
    return { url, method, queryString, headers, env, data, cookies }

/-- The members that a request is written with; data and cookies that are `null` are left out. -/
def members (r : Request) : List (String × Value) :=
  [("url", .string r.url), ("method", .string r.method), ("query_string", .string r.queryString),
   ("headers", .ofTexts r.headers), ("env", .ofTexts r.env)] ++
  (if r.data.isNull then [] else [("data", r.data)]) ++
  (if r.cookies.isNull then [] else [("cookies", r.cookies)])

/-- A request as JSON. -/
def toValue (r : Request) : Value := .ofTable (.ofList r.members)

end Request

end ErrorIntake
