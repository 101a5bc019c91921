import ErrorIntake.Json.Tree
import ErrorIntake.Table

/-!
# JSON values

A value is what a JSON text means: numbers and texts are evaluated, an object has each key once,
and its members stand in key order.  `ofTree?` gives the value of a tree.  It refuses a number past
the largest double, a text with a lone surrogate, and containers nested deeper than there is room
for; a repeated key keeps its last member.

An object that opens with the key `embeddingKey` does not stand for itself: its one member is a
string, and the object has the value of the JSON text in that string.  `plainOfTree?` takes such
an object as it is written.
-/

namespace ErrorIntake.Json

/-- What a JSON text means. -/
inductive Value
  | null
  | bool (b : Bool)
  | number (n : Number)
  | string (s : String)
  | array (elements : List Value)
  | object (members : List (String × Value))
  deriving Repr, Inhabited

/-- How many containers may stand inside one another in one text. -/
def nestingLimit : Nat := 127

/-- The key of an object that stands for the JSON text in its one member. -/
def embeddingKey : String := "$serde_json::private::RawValue"

/-- The first member of an object has the key of an embedded text. -/
def isEmbedding : List (Literal × Tree) → Bool
  | (key, _) :: _ => key.text? == some embeddingKey
  | [] => false

/-- The text that an object embeds; none if anything but one string stands in it. -/
def embeddedText? : List (Literal × Tree) → Option String
  | [(_, .string l)] => l.text?
  | _ => none

namespace Value

mutual

/-- The value of a tree, with room for so many containers inside one another.  `embedded` gives the
    value of an embedded text; without it no object embeds one. -/
def ofTreeWith? (embedded : Option (String → Option Value)) (room : Nat) : Tree → Option Value
  | .null => some .null
  | .bool b => some (.bool b)
  | .number n => n.value?.map .number
  | .string l => l.text?.map .string
  | .array elements =>
    match room with
    | 0 => none
    | room + 1 => (ofElements? embedded room elements).map .array
  | .object members =>
    match room, embedded with
    | 0, _ => none
    | room + 1, some valueOf =>
      if isEmbedding members then (embeddedText? members).bind valueOf
      else (ofMembers? (some valueOf) room [] members).map .object
    | room + 1, none => (ofMembers? none room [] members).map .object

/-- The values of elements. -/
def ofElements? (embedded : Option (String → Option Value)) (room : Nat) :
    List Tree → Option (List Value)
  | [] => some []
  | t :: rest => do
    let v ← ofTreeWith? embedded room t
    let vs ← ofElements? embedded room rest
    return v :: vs

/-- The values of members, added to those of the members before them. -/
def ofMembers? (embedded : Option (String → Option Value)) (room : Nat)
    (before : List (String × Value)) : List (Literal × Tree) → Option (List (String × Value))
  | [] => some before
  | (l, t) :: rest => do
    let key ← l.text?
    let v ← ofTreeWith? embedded room t
    ofMembers? embedded room (Table.insertEntry key v before) rest

end

/-- The value of a text, in which texts may be embedded in one another.  An embedded text is shorter
    than the text that it stands in, so fuel beyond the length of the text does not matter. -/
def ofTextWithin? : (fuel : Nat) → String → Option Value
  | 0, _ => none
  | fuel + 1, s => do
    let t ← Tree.ofText? s
    ofTreeWith? (some (ofTextWithin? fuel)) nestingLimit t

/-- The value of a whole text. -/
def ofText? (s : String) : Option Value := ofTextWithin? (s.length + 1) s

/-- The value of a tree, with room for so many containers inside one another.  Nesting is counted
    anew in an embedded text. -/
def ofTree? (room : Nat) (t : Tree) : Option Value := ofTreeWith? (some ofText?) room t

/-- The value of a tree in which no object stands for an embedded text. -/
def plainOfTree? (room : Nat) (t : Tree) : Option Value := ofTreeWith? none room t

/-- The value is `null`. -/
def isNull : Value → Bool
  | .null => true
  | _ => false

mutual

/-- The text of a value, without blanks. -/
def chars : Value → List Char
  | .null => ['n', 'u', 'l', 'l']
  | .bool true => ['t', 'r', 'u', 'e']
  | .bool false => ['f', 'a', 'l', 's', 'e']
  | .number n => n.toText.toList
  | .string s => Literal.quote s
  | .array elements => '[' :: elementChars elements ++ [']']
  | .object members => '\x7b' :: memberChars members ++ ['\x7d']

/-- The texts of elements with a comma between two of them. -/
def elementChars : List Value → List Char
  | [] => []
  | [v] => chars v
  | v :: w :: rest => chars v ++ ',' :: elementChars (w :: rest)

/-- The texts of members with a comma between two of them, in the order in which they stand. -/
def memberChars : List (String × Value) → List Char
  | [] => []
  | [(key, v)] => Literal.quote key ++ ':' :: chars v
  | (key, v) :: m :: rest => Literal.quote key ++ ':' :: (chars v ++ ',' :: memberChars (m :: rest))

end

/-- The text of a value. -/
def toText (v : Value) : String := String.ofList v.chars

/-- An integer. -/
def ofInt (n : Int) : Value := .number (.integer n)

/-- A text, or `null` for none. -/
def ofOption (f : α → Value) : Option α → Value
  | some a => f a
  | none => .null

/-- A table as an object. -/
def ofTable (t : Table Value) : Value := .object t.entries

/-- A table of texts as an object of strings. -/
def ofTexts (t : Table String) : Value := .object (t.entries.map fun e => (e.1, .string e.2))

end Value

end ErrorIntake.Json
