import ErrorIntake.Json.Decode

/-!
# Levels

The severity of an event.  A level has a name and a numeric code; the code is what is stored and
queued, the name is what people write, in any case, and `warn` is short for `warning`.
-/

namespace ErrorIntake

/-- The severity of an event. -/
inductive Level
  | debug
  | info
  | warning
  | error
  | fatal
  deriving DecidableEq, Repr

namespace Level

/-- The level of an event that names none. -/
instance : Inhabited Level := ⟨error⟩

/-- The numeric code; a graver level has a larger one. -/
def code : Level → Int
  | debug => 10
  | info => 20
  | warning => 30
  | error => 40
  | fatal => 50

/-- The name of a level. -/
def name : Level → String
  | debug => "debug"
  | info => "info"
  | warning => "warning"
  | error => "error"
  | fatal => "fatal"

/-- The level with a code. -/
def ofCode? (code : Int) : Option Level :=
  if code = 10 then some debug
  else if code = 20 then some info
  else if code = 30 then some warning
  else if code = 40 then some error
  else if code = 50 then some fatal
  else none

/-- Why something is no level. -/
inductive Unknown
  /-- The name, with its ASCII capitals made small. -/
  | name (name : String)
  | code (code : Int)
  deriving DecidableEq, Repr

/-- What is said about an unknown level. -/
def Unknown.message : Unknown → String
  | name n => "unknown level: " ++ n
  | code c => "unknown level code: " ++ toString c

/-- The level with a name, capitals of ASCII aside. -/
def parse (text : String) : Except Unknown Level :=
  match Text.lower text with
  | "debug" => .ok debug
  | "info" => .ok info
  | "warning" => .ok warning
  | "warn" => .ok warning
  | "error" => .ok error
  | "fatal" => .ok fatal
  | other => .error (.name other)

/-- The level with a code, or the code that is none. -/
def ofCode (code : Int) : Except Unknown Level :=
  match ofCode? code with
  | some level => .ok level
  | none => .error (.code code)

/-- Levels compare as their codes do. -/
def compare (a b : Level) : Ordering := Ord.compare a.code b.code

/-- A level as its code. -/
def ofTree? (t : Json.Tree) : Option Level := t.int32?.bind ofCode?

@[simp] theorem ofCode?_code (level : Level) : ofCode? level.code = some level := by
  cases level <;> rfl

theorem code_of_ofCode? {code : Int} {level : Level} (h : ofCode? code = some level) :
    level.code = code := by
  simp only [ofCode?] at h
  repeat' split at h
  all_goals simp_all [Level.code]
  all_goals subst h; rfl

end Level

end ErrorIntake
