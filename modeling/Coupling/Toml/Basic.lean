/-!
# TOML values

A document is a table of keys and values. A table remembers how it came about, because that decides
what may be added to it later: a table that a header names can be named only once, one that dotted
keys made can grow only by dotted keys, and an inline table is complete where it is written.
-/

namespace Coupling.Toml

/-- How a table came about. -/
inductive Origin where
  /-- A header names it, or it is the document. -/
  | header
  /-- It lies on the way to a table that a header names. -/
  | path
  /-- It lies on the way of a dotted key. -/
  | dotted
  /-- It is written inline. -/
  | inline
deriving DecidableEq, Repr

inductive Value where
  /-- A text. -/
  | string (content : String)
  /-- A whole number. -/
  | integer (value : Int)
  /-- A floating-point number as it is written. -/
  | float (literal : String)
  /-- A truth value. -/
  | boolean (value : Bool)
  /-- A date, a time, or both, as it is written. -/
  | dateTime (literal : String)
  | array (items : List Value)
  | table (origin : Origin) (entries : List (String × Value))
  /-- An array of tables, each of which a header opened. -/
  | tables (items : List (List (String × Value)))
deriving Inhabited

/-- The keys of a table and their values, in the order in which they were added. -/
abbrev Entries := List (String × Value)

namespace Entries

/-- The value of a key. -/
def get? (entries : Entries) (key : String) : Option Value :=
  List.lookup key entries

/-- Puts a value in the place of the present one of a key, or else at the end. -/
def set (entries : Entries) (key : String) (value : Value) : Entries :=
  if (entries.get? key).isSome then
    entries.map fun entry => if entry.1 == key then (key, value) else entry
  else
    entries ++ [(key, value)]

/-- Changes the table that a header's path leads to, making the tables on the way that are missing.
An array of tables stands for its last table. -/
def within? (change? : Entries → Option Entries) (path : List String) (entries : Entries) :
    Option Entries :=
  match path with
  | [] => change? entries
  | key :: rest =>
    match entries.get? key with
    | none => (within? change? rest []).map fun made => entries.set key (.table .path made)
    | some (.table .inline _) => none
    | some (.table origin inner) =>
      (within? change? rest inner).map fun made => entries.set key (.table origin made)
    | some (.tables items) =>
      match items.getLast? with
      | some latest =>
        (within? change? rest latest).map fun made =>
          entries.set key (.tables (items.dropLast ++ [made]))
      | none => none
    | some _ => none

/-- Opens the table that a header names. -/
def openTable? (key : String) (entries : Entries) : Option Entries :=
  match entries.get? key with
  | none => some (entries.set key (.table .header []))
  | some (.table .path inner) => some (entries.set key (.table .header inner))
  | some _ => none

/-- Opens one more table of the array that a header names. -/
def openItem? (key : String) (entries : Entries) : Option Entries :=
  match entries.get? key with
  | none => some (entries.set key (.tables [[]]))
  | some (.tables items) => some (entries.set key (.tables (items ++ [[]])))
  | some _ => none

/-- Adds a key that is not there yet. -/
def add? (key : String) (value : Value) (entries : Entries) : Option Entries :=
  match entries.get? key with
  | none => some (entries.set key value)
  | some _ => none

/-- Adds a dotted key. The tables on its way are made unless they are there, and the last of them
must have been made by dotted keys: `dotted` says so of the present table, which is `start` if no
part of the key was used. -/
def assign? (start dotted : Bool) (path : List String) (key : String) (value : Value)
    (entries : Entries) : Option Entries :=
  match path with
  | [] => if start || dotted then entries.add? key value else none
  | step :: rest =>
    match entries.get? step with
    | none =>
      (assign? false true rest key value []).map fun made => entries.set step (.table .dotted made)
    | some (.table .dotted inner) =>
      (assign? false true rest key value inner).map fun made =>
        entries.set step (.table .dotted made)
    | some (.table .path inner) =>
      (assign? false false rest key value inner).map fun made =>
        entries.set step (.table .path made)
    | some (.tables items) =>
      match items.getLast? with
      | some latest =>
        (assign? false false rest key value latest).map fun made =>
          entries.set step (.tables (items.dropLast ++ [made]))
      | none => none
    | some _ => none

end Entries

end Coupling.Toml
