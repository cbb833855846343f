/-!
# JSON values

A value keeps what a reader can still need: numbers stay as written, and the members of an object
keep their order and their repetitions.

A string literal may hold the escape of half a surrogate pair, which spells no text. Such a literal
is allowed where nobody looks at it, so the value records that it is there.
-/

namespace Coupling

/-- What a string literal spells: nothing if it holds half of a surrogate pair. -/
abbrev Json.Text := Option String

/-- A JSON value. -/
inductive Json where
  /-- The literal `null`. -/
  | null
  /-- One of the literals `true` and `false`. -/
  | bool (value : Bool)
  /-- A number as it is written. -/
  | number (literal : String)
  | string (content : Json.Text)
  | array (items : List Json)
  | object (members : List (Json.Text × Json))
deriving Inhabited

namespace Json

/-- The string that spells a text. -/
def text (content : String) : Json := .string (some content)

/-- The array of strings that spell the given texts. -/
def texts (contents : List String) : Json := .array (contents.map text)

/-- A natural number in decimal digits. -/
def nat (value : Nat) : Json := .number (toString value)

/-- An object with the given members. -/
def record (members : List (String × Json)) : Json :=
  .object (members.map fun (key, value) => (some key, value))

/-- The text of a string. -/
def asText? : Json → Option String
  | .string content => content
  | _ => none

/-- The texts of an array of strings. -/
def asTexts? : Json → Option (List String)
  | .array items => items.mapM asText?
  | _ => none

/-- The value of a field among the members of an object: `none` if the field is repeated, and
`some none` if it is absent. -/
def field? (members : List (Json.Text × Json)) (name : String) : Option (Option Json) :=
  match members.filter fun member => member.1 == some name with
  | [] => some none
  | [(_, value)] => some (some value)
  | _ => none

/-- The values of the named fields of a record, each of which may be absent.

An object gives them by name; its other members are ignored, but none of its keys may fail to spell
a text and no named field may be repeated. An array gives them by position, and may stop early. -/
def fields? (names : List String) : Json → Option (List (Option Json))
  | .object members =>
    if members.all fun member => member.1.isSome then names.mapM (field? members) else none
  | .array items =>
    if items.length ≤ names.length then
      some ((items.map some) ++ List.replicate (names.length - items.length) none)
    else
      none
  | _ => none

end Json

end Coupling
