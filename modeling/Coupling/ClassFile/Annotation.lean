import Coupling.ClassFile.ConstantPool

/-!
# Annotations

An annotation names its type and pairs of an element name and a value. A value may hold an
annotation or a list of values in turn. What is still to be read is kept on a stack, so that the
nesting of annotations does not nest calls.
-/

namespace Coupling.ClassFile

/-- What may stand next in annotation data. -/
inductive Element where
  /-- An annotation. -/
  | entry
  /-- A name and a value. -/
  | pair
  | value
deriving DecidableEq, Repr

/-- The classes of the descriptor at the index that comes next. -/
def describedNames (pool : ConstantPool) : Reader (List String) := do
  let index ← Reader.u16
  return descriptorNames (← pool.utf8 index)

/-- Reads one element: the classes it names, and the elements that it consists of. -/
def Element.read (pool : ConstantPool) : Element → Reader (List String × List Element)
  | .entry => do
    let names ← describedNames pool
    let pairs ← Reader.u16
    return (names, List.replicate pairs .pair)
  | .pair => do
    Reader.skip 2
    return ([], [.value])
  | .value => do
    let tag ← Reader.u8
    match Char.ofNat tag with
    | 'e' =>
      let names ← describedNames pool
      Reader.skip 2
      return (names, [])
    | 'c' =>
      let names ← describedNames pool
      return (names, [])
    | '@' => return ([], [.entry])
    | '[' =>
      let values ← Reader.u16
      return ([], List.replicate values .value)
    | _ =>
      Reader.skip 2
      return ([], [])

/-- Reads the pending elements, at most `fuel` of them. `found` holds the classes named so far, the
latest first. -/
def drain (pool : ConstantPool) :
    Nat → List Element → List (List String) → Reader (List String)
  | 0, _, found => pure found.reverse.flatten
  | _ + 1, [], found => pure found.reverse.flatten
  | fuel + 1, element :: pending, found => do
    let (names, inner) ← element.read pool
    drain pool fuel (inner ++ pending) (names :: found)

/-- Reads a table of annotations and gives the classes that it names. Every element takes a byte, so
there are at most as many elements as bytes before the data ends. -/
def annotations (pool : ConstantPool) : Reader (List String) := do
  let count ← Reader.u16
  let cursor ← get
  drain pool (cursor.rest.length + 1) (List.replicate count .entry) []

end Coupling.ClassFile
