/-!
# Type descriptors

A descriptor spells the type of a field or method. Class types stand between the letter `L` and a
semicolon, with slashes between the parts of the name.
-/

namespace Coupling.ClassFile

/-- A class name with dots in place of the slashes of its internal form. -/
def qualified (internal : List Char) : String :=
  String.ofList (internal.map fun c => if c = '/' then '.' else c)

/-- The class types of a descriptor in internal form, in order. `open?` holds the part of a class
type that has been read, latest character first, and `found` the class types before it. A class type
that does not end is left out. -/
def classTypes (open? : Option (List Char)) (found : List (List Char)) :
    List Char → List (List Char)
  | [] => found.reverse
  | c :: rest =>
    match open? with
    | none => classTypes (if c = 'L' then some [] else none) found rest
    | some name =>
      if c = ';' then classTypes none (name.reverse :: found) rest
      else classTypes (some (c :: name)) found rest

/-- The qualified names of the classes that a descriptor names. -/
def descriptorNames (descriptor : String) : List String :=
  (classTypes none [] descriptor.toList).map qualified

end Coupling.ClassFile
