/-!
# Paths

A path is kept as the text it was given by. Two paths are the same if their components are: repeated
slashes, a trailing slash and single dots that do not stand first make no difference. A double dot
is a component of its own and is never resolved here.
-/

namespace Coupling

/-- A path to a file or folder. -/
structure Path where
  /-- The path as it was written. -/
  text : String
deriving DecidableEq, Repr, Inhabited

/-- A step of a path. -/
inductive Path.Component where
  /-- The topmost folder. -/
  | root
  /-- The folder itself, which counts only at the start of a path. -/
  | here
  /-- The folder above. -/
  | up
  /-- An entry of the folder. -/
  | entry (name : String)
deriving DecidableEq, Repr

namespace Path

/-- The texts between the slashes. -/
def segments (path : Path) : List String :=
  (path.text.toList.splitOn '/').map String.ofList

/-- The path that has the given texts between its slashes. -/
def ofSegments (segments : List String) : Path :=
  ⟨String.ofList (['/'].intercalate (segments.map String.toList))⟩

/-- The path starts at the topmost folder. -/
def isAbsolute (path : Path) : Bool :=
  path.text.toList.head? == some '/'

/-- The text between two slashes adds no component, unless it stands first. -/
def isIdle (segment : String) : Bool :=
  segment == "" || segment == "."

/-- The component that a text between two slashes stands for. -/
def componentOf (segment : String) : Component :=
  if segment == ".." then .up else .entry segment

/-- The steps of a path. -/
def components (path : Path) : List Component :=
  let start : List Component :=
    if path.isAbsolute then [.root]
    else if path.segments.head? == some "." then [.here]
    else []
  start ++ (path.segments.filter fun segment => !isIdle segment).map componentOf

/-- The two paths have the same components. -/
def same (left right : Path) : Bool :=
  left.components == right.components

/-- The second path as seen from the first. An absolute second path is taken as it is. -/
def join (base tail : Path) : Path :=
  if tail.isAbsolute then tail
  else if base.text.isEmpty || base.text.toList.getLast? == some '/' then ⟨base.text ++ tail.text⟩
  else ⟨base.text ++ "/" ++ tail.text⟩

/-- The path of the entry that names lead to, one folder after the other, from a base. -/
def below (base : Path) (names : List String) : Path :=
  names.foldl (fun found name => found.join ⟨name⟩) base

/-- The name of the entry that a path ends in. -/
def fileName? (path : Path) : Option String :=
  match path.components.getLast? with
  | some (.entry name) => some name
  | _ => none

/-- Splits a file name at its last dot, unless that dot stands first. -/
def splitExtension (name : String) : String × Option String :=
  let reversed := name.toList.reverse
  match reversed.dropWhile (· != '.') with
  | _ :: first :: rest =>
    (String.ofList (first :: rest).reverse,
      some (String.ofList (reversed.takeWhile (· != '.')).reverse))
  | _ => (name, none)

/-- The file name without its extension. -/
def fileStem? (path : Path) : Option String :=
  path.fileName?.map fun name => (splitExtension name).1

/-- The text after the last dot of the file name. A dot that stands first starts no extension. -/
def extension? (path : Path) : Option String :=
  path.fileName?.bind fun name => (splitExtension name).2

/-- Removes the segments that add no component from the end of a reversed list of segments, but
keeps a single dot that is all there is. -/
def trimIdle : List String → List String
  | ["."] => ["."]
  | segment :: rest => if isIdle segment then trimIdle rest else segment :: rest
  | [] => []

/-- Puts an extension in the place of the present one, if the path ends in a file name. What follows
the file name, such as a trailing slash, is dropped. -/
def withExtension (path : Path) (extension : String) : Path :=
  match path.fileStem? with
  | none => path
  | some stem =>
    match trimIdle path.segments.reverse with
    | _ :: before => ofSegments (before.reverse ++ [stem ++ "." ++ extension])
    | [] => path

/-- A path from the root that has no component below it still has two empty segments. -/
def orRoot : List String → List String
  | [] => [""]
  | segments => segments

/-- The path without its last component, if it has one besides the root. -/
def parent? (path : Path) : Option Path :=
  if path.isAbsolute then
    match path.segments.tail.reverse.dropWhile isIdle with
    | [] => none
    | _ :: before => some (ofSegments ("" :: orRoot (before.dropWhile isIdle).reverse))
  else
    match trimIdle path.segments.reverse with
    | [] => none
    | _ :: before => some (ofSegments (trimIdle before).reverse)

/-- The text of a component. -/
def Component.text : Component → String
  | .root => "/"
  | .here => "."
  | .up => ".."
  | .entry name => name

/-- The components one after the other, seen from a base. -/
def extend (base : Path) (steps : List Component) : Path :=
  steps.foldl (fun found step => found.join ⟨step.text⟩) base

/-- The path starts with exactly two slashes, which some systems tell from one. -/
def hasDoubleRoot (path : Path) : Bool :=
  match path.text.toList with
  | '/' :: '/' :: '/' :: _ => false
  | '/' :: '/' :: _ => true
  | _ => false

/-- The path from the topmost folder, where a relative path starts at the working folder. Components
are kept as they are, and so is a trailing slash. The empty path has none. -/
def absolute? (workingFolder path : Path) : Option Path :=
  let steps := path.components.filter (· != .here)
  let found :=
    if path.hasDoubleRoot then extend ⟨"//"⟩ steps.tail
    else if path.isAbsolute then extend ⟨""⟩ steps
    else extend workingFolder steps
  if path.text.isEmpty then none
  else if path.text.toList.getLast? == some '/' then some (found.join ⟨""⟩)
  else some found

end Path

end Coupling
