import Coupling.ClassFile.Descriptor
import Coupling.ClassFile.Reader
import Coupling.Text.Utf8

/-!
# Constant pools

The constant pool is the table that the rest of a class file refers to by index. Indices start at
one, and a long or double takes two of them. Only what leads to class names is kept: texts, classes,
and descriptors.
-/

namespace Coupling.ClassFile

/-- An entry of the constant pool. -/
inductive Constant where
  /-- A text. -/
  | utf8 (text : String)
  /-- A class, by the index of its name. -/
  | classEntry (name : Nat)
  /-- A member, by the index of its descriptor. -/
  | nameAndType (descriptor : Nat)
  /-- A method type, by the index of its descriptor. -/
  | methodType (descriptor : Nat)
  /-- A constant that names no class. -/
  | other
  /-- The index zero, or the second index of a long or double. -/
  | unusable
deriving DecidableEq, Repr

/-- The entries of a constant pool by index. -/
abbrev ConstantPool := Array Constant

namespace ConstantPool

/-- The entries that one constant takes: two for a long or double, else one. -/
def constant (index : Nat) : Reader (List Constant) := do
  let tag ← Reader.u8
  match tag with
  | 1 =>
    let length ← Reader.u16
    let bytes ← Reader.bytes length
    return [.utf8 (Utf8.decodeLossy bytes)]
  | 7 =>
    let name ← Reader.u16
    return [.classEntry name]
  | 12 =>
    Reader.skip 2
    let descriptor ← Reader.u16
    return [.nameAndType descriptor]
  | 16 =>
    let descriptor ← Reader.u16
    return [.methodType descriptor]
  | 5 | 6 =>
    Reader.skip 8
    return [.other, .unusable]
  | 3 | 4 | 9 | 10 | 11 | 17 | 18 =>
    Reader.skip 4
    return [.other]
  | 8 | 19 | 20 =>
    Reader.skip 2
    return [.other]
  | 15 =>
    Reader.skip 3
    return [.other]
  | _ => throw (.unknownTag index tag)

/-- Reads constants until there are `count` entries, but at most `fuel` constants. -/
def constants (count : Nat) : Nat → ConstantPool → Reader ConstantPool
  | 0, pool => pure pool
  | fuel + 1, pool =>
    if pool.size < count then do
      let entries ← constant pool.size
      constants count fuel (pool ++ entries)
    else
      pure pool

/-- Reads the constant pool. Every constant takes an entry, so there are at most as many constants
as entries. -/
def read : Reader ConstantPool := do
  let count ← Reader.u16
  constants count count #[.unusable]

/-- The text at an index. -/
def utf8 (pool : ConstantPool) (index : Nat) : Except Fault String :=
  match pool[index]? with
  | some (.utf8 text) => .ok text
  | _ => .error (.badReference index .utf8)

/-- The name of the class at an index, in internal form. -/
def className (pool : ConstantPool) (index : Nat) : Except Fault String :=
  match pool[index]? with
  | some (.classEntry name) => pool.utf8 name
  | _ => .error (.badReference index .classEntry)

/-- The classes that an entry names. The name of an array class is a descriptor. -/
def constantNames (pool : ConstantPool) : Constant → Except Fault (List String)
  | .classEntry index => do
    let internal ← pool.utf8 index
    if internal.toList.head? == some '[' then return descriptorNames internal
    else return [qualified internal.toList]
  | .nameAndType descriptor | .methodType descriptor => do
    return descriptorNames (← pool.utf8 descriptor)
  | _ => .ok []

/-- The classes that the entries name. `found` holds those of earlier entries, latest first. -/
def namesOf (pool : ConstantPool) (found : List (List String)) :
    List Constant → Except Fault (List String)
  | [] => .ok found.reverse.flatten
  | entry :: rest => do
    let names ← pool.constantNames entry
    namesOf pool (names :: found) rest

/-- The classes that the pool names. -/
def names (pool : ConstantPool) : Except Fault (List String) :=
  pool.namesOf [] pool.toList

end ConstantPool

end Coupling.ClassFile
