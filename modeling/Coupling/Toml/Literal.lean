import Coupling.Toml.Basic

/-!
# TOML literals

Numbers, truth values, dates and times. A literal is a run of letters, digits and a few signs, and
it is what the run as a whole spells.
-/

namespace Coupling.Toml

namespace Literal

/-- The digits of a number in which each underscore stands between two digits. -/
def digits? (isDigit : Char → Bool) (text : List Char) : Option (List Char) :=
  let groups := text.splitOn '_'
  if groups.all fun group => !group.isEmpty && group.all isDigit then some groups.flatten else none

/-- A hexadecimal digit. -/
def isHexDigit (c : Char) : Bool :=
  c.isDigit || ('a' ≤ c.toLower && c.toLower ≤ 'f')

/-- The value of a digit of any base up to sixteen. -/
def digitValue (c : Char) : Nat :=
  if c.isDigit then c.toNat - '0'.toNat else c.toLower.toNat - 'a'.toNat + 10

/-- The number that digits stand for. -/
def number (base : Nat) (digits : List Char) : Nat :=
  digits.foldl (fun value digit => value * base + digitValue digit) 0

/-- The sign in front of a number, and what follows it. -/
def splitSign : List Char → Bool × List Char
  | '-' :: rest => (true, rest)
  | '+' :: rest => (false, rest)
  | text => (false, text)

/-- The digits of a whole decimal number, which starts with a zero only if it is zero. -/
def decimal? (text : List Char) : Option (List Char) :=
  match digits? Char.isDigit text with
  | some ('0' :: _ :: _) => none
  | found => found

/-- A whole number. Only decimal numbers have a sign. -/
def integer? (text : List Char) : Option Int :=
  match text with
  | '0' :: 'x' :: digits =>
    (digits? isHexDigit digits).map fun found => (number 16 found : Int)
  | '0' :: 'o' :: digits =>
    (digits? (fun c => '0' ≤ c && c ≤ '7') digits).map fun found => (number 8 found : Int)
  | '0' :: 'b' :: digits =>
    (digits? (fun c => c == '0' || c == '1') digits).map fun found => (number 2 found : Int)
  | _ =>
    let (negative, digits) := splitSign text
    (decimal? digits).map fun found =>
      if negative then -(number 10 found : Int) else (number 10 found : Int)

/-- The exponent of a floating-point number. -/
def isExponent : List Char → Bool
  | [] => true
  | c :: rest => (c == 'e' || c == 'E') && (digits? Char.isDigit (splitSign rest).2).isSome

/-- The part of a floating-point number after its whole digits. -/
def isFraction : List Char → Bool
  | '.' :: rest =>
    let isDecimal := fun c : Char => c.isDigit || c == '_'
    (digits? Char.isDigit (rest.takeWhile isDecimal)).isSome &&
      isExponent (rest.dropWhile isDecimal)
  | rest => !rest.isEmpty && isExponent rest

/-- The text is a floating-point number. -/
def isFloat (text : List Char) : Bool :=
  let unsigned := (splitSign text).2
  let isDecimal := fun c : Char => c.isDigit || c == '_'
  unsigned == "inf".toList || unsigned == "nan".toList ||
    ((decimal? (unsigned.takeWhile isDecimal)).isSome && isFraction (unsigned.dropWhile isDecimal))

/-- The number that two digits spell. -/
def pair? : List Char → Option (Nat × List Char)
  | first :: second :: rest =>
    if first.isDigit && second.isDigit then some (number 10 [first, second], rest) else none
  | _ => none

/-- The number of days of a month. -/
def daysOf (year month : Nat) : Nat :=
  if month == 2 then
    if (year % 4 == 0 && year % 100 != 0) || year % 400 == 0 then 29 else 28
  else if month == 4 || month == 6 || month == 9 || month == 11 then 30
  else 31

/-- Two digits after a sign. -/
def pairAfter? (sign : Char) : List Char → Option (Nat × List Char)
  | c :: rest => if c == sign then pair? rest else none
  | [] => none

/-- What follows a date. -/
def afterDate? (text : List Char) : Option (List Char) := do
  let (century, rest) ← pair? text
  let (yearOfCentury, rest) ← pair? rest
  let (month, rest) ← pairAfter? '-' rest
  let (day, rest) ← pairAfter? '-' rest
  let year := century * 100 + yearOfCentury
  if 1 ≤ month && month ≤ 12 && 1 ≤ day && day ≤ daysOf year month then some rest else none

/-- What follows the seconds of a time, which may be left out and may have decimals. -/
def afterSeconds? : List Char → Option (List Char)
  | ':' :: text =>
    match pair? text with
    | none => none
    | some (seconds, rest) =>
      if 60 < seconds then none
      else
        match rest with
        | '.' :: decimals =>
          if (decimals.takeWhile Char.isDigit).isEmpty then none
          else some (decimals.dropWhile Char.isDigit)
        | _ => some rest
  | text => some text

/-- What follows the hours and minutes of a time. -/
def afterMinutes? (text : List Char) : Option (List Char) := do
  let (hours, rest) ← pair? text
  let (minutes, rest) ← pairAfter? ':' rest
  if hours ≤ 23 && minutes ≤ 59 then some rest else none

/-- What follows a time. -/
def afterTime? (text : List Char) : Option (List Char) :=
  (afterMinutes? text).bind afterSeconds?

/-- What may follow the time of a day: a distance from universal time. -/
def isOffset : List Char → Bool
  | [] => true
  | c :: rest =>
    if c == 'Z' || c == 'z' then rest.isEmpty
    else (c == '+' || c == '-') && afterMinutes? rest == some []

/-- The text is a date, a time, or both. -/
def isDateTime (text : List Char) : Bool :=
  match afterDate? text with
  | some [] => true
  | some (c :: rest) =>
    (c == 'T' || c == 't' || c == ' ') && (afterTime? rest).any isOffset
  | none => afterTime? text == some []

/-- The value that a literal spells. -/
def value? (text : List Char) : Option Value :=
  if text == "true".toList then some (.boolean true)
  else if text == "false".toList then some (.boolean false)
  else
    match integer? text with
    | some value => some (.integer value)
    | none =>
      if isFloat text then some (.float (String.ofList text))
      else if isDateTime text then some (.dateTime (String.ofList text))
      else none

/-- A character of a literal. -/
def isPart (c : Char) : Bool :=
  c.isAlphanum || "_+-.:".toList.contains c

/-- The literal that a text starts with, and what follows it. A blank belongs to the literal if it
stands between a date and a time. -/
def split (text : List Char) : List Char × List Char :=
  let run := text.takeWhile isPart
  match afterDate? run, text.dropWhile isPart with
  | some [], ' ' :: c :: rest =>
    if c.isDigit then (run ++ ' ' :: (c :: rest).takeWhile isPart, (c :: rest).dropWhile isPart)
    else (run, ' ' :: c :: rest)
  | _, rest => (run, rest)

end Literal

end Coupling.Toml
