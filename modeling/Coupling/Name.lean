import Std.Data.ExtTreeSet

/-!
# Names of classes and packages

A class is known by its qualified name, such as `app.core.Service$Cache`. The text before the last
dot is its package, the text after it its simple name, and a nested class carries the name of its
enclosing class before its last dollar sign.

Packages nest by their dot-separated parts: `app.core` lies within `app` but not within `ap`.
-/

namespace Coupling

/-- A fully qualified class name. -/
abbrev ClassName := String

/-- A dotted package name. -/
abbrev PackageName := String

/-- A class name without its package. Several classes may share one. -/
abbrev SimpleName := String

/-- A set of names, listed in ascending code point order. -/
abbrev NameSet := Std.ExtTreeSet String

/-- The set of the listed names. -/
def NameSet.ofList (names : List String) : NameSet :=
  Std.ExtTreeSet.ofList names

namespace Name

/-- The text before the last occurrence of `mark`, if there is one. -/
def beforeLast? (mark : Char) (text : List Char) : Option (List Char) :=
  match text.reverse.dropWhile (· != mark) with
  | [] => none
  | _ :: before => some before.reverse

/-- The text after the last occurrence of `mark`, or all of it if there is none. -/
def afterLast (mark : Char) (text : List Char) : List Char :=
  (text.reverse.takeWhile (· != mark)).reverse

/-- The package reported for a class that is declared without one. -/
def defaultPackage : PackageName := "(default)"

/-- The package a qualified name lies in. A name whose only dot stands first has none. -/
def package (name : ClassName) : PackageName :=
  match beforeLast? '.' name.toList with
  | some (first :: rest) => String.ofList (first :: rest)
  | _ => defaultPackage

/-- Everything after the last dot, nested-class separators included. -/
def simple (name : ClassName) : SimpleName :=
  String.ofList (afterLast '.' name.toList)

/-- The simple name of the class that directly encloses this one, if it is nested. -/
def enclosing? (name : SimpleName) : Option SimpleName :=
  (beforeLast? '$' name.toList).map String.ofList

/-- The text starts with the given beginning. -/
def startsWith (text beginning : String) : Bool :=
  beginning.toList.isPrefixOf text.toList

/-- The package is `outer` itself or nested below it. -/
def isWithin (package outer : PackageName) : Bool :=
  package == outer || (outer.toList ++ ['.']).isPrefixOf package.toList

end Name

end Coupling
