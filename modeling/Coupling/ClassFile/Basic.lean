import Coupling.ClassFile.Annotation
import Coupling.ClassFile.Signature
import Coupling.Name

/-!
# Class files

A class file names the class that it declares and every class that this one refers to: in the
constant pool, in the descriptors of its members, in generic signatures and in annotations. All else
is skipped by its length, and bytes after the end are ignored.
-/

namespace Coupling

/-- What one class file declares and refers to. -/
structure ClassFile where
  /-- The qualified name of the class. -/
  name : ClassName
  /-- The file declares a module and no class. -/
  isModule : Bool
  /-- The qualified names that it refers to, its own left out. -/
  dependencies : NameSet
deriving DecidableEq

namespace ClassFile

/-- The classes that the body of an attribute names. -/
def attributeBody (pool : ConstantPool) (name : String) : Reader (List String) :=
  match name with
  | "Signature" => do
    let index ← Reader.u16
    return signatureNames (← pool.utf8 index)
  | "RuntimeVisibleAnnotations" | "RuntimeInvisibleAnnotations" => annotations pool
  | "RuntimeVisibleParameterAnnotations" | "RuntimeInvisibleParameterAnnotations" => do
    let parameters ← Reader.u8
    let names ← Reader.repeated (annotations pool) parameters []
    return names.flatten
  | _ => pure []

/-- The classes that an attribute names. -/
def attributeNames (pool : ConstantPool) : Reader (List String) := do
  let index ← Reader.u16
  let name ← pool.utf8 index
  let length ← Reader.u32
  let body ← Reader.bytes length
  Reader.within body (attributeBody pool name)

/-- The classes that a table of attributes names. -/
def attributes (pool : ConstantPool) : Reader (List String) := do
  let names ← Reader.table (attributeNames pool)
  return names.flatten

/-- The classes that a field or method names. -/
def member (pool : ConstantPool) : Reader (List String) := do
  Reader.skip 2
  Reader.skip 2
  let described ← describedNames pool
  let attributed ← attributes pool
  return described ++ attributed

/-- The number that every class file starts with. -/
def magic : Nat := 0xCAFEBABE

/-- The access flags mark a module. -/
def marksModule (access : Nat) : Bool :=
  access.testBit 15

/-- Reads a class file. -/
def reader : Reader ClassFile := do
  let start ← Reader.u32
  if start != magic then throw (.badMagic start)
  Reader.skip 2
  Reader.skip 2
  let pool ← ConstantPool.read
  let access ← Reader.u16
  let thisClass ← Reader.u16
  let name := qualified (← pool.className thisClass).toList
  let pooled ← pool.names
  Reader.skip 2
  let interfaces ← Reader.u16
  Reader.skip (2 * interfaces)
  let fields ← Reader.table (member pool)
  let methods ← Reader.table (member pool)
  let attributed ← attributes pool
  let named := pooled ++ fields.flatten ++ methods.flatten ++ attributed
  return ⟨name, marksModule access, (NameSet.ofList named).erase name⟩

/-- Reads the class file that some data starts with. -/
def parse (data : List UInt8) : Except Fault ClassFile :=
  (reader (.start data)).1

end ClassFile

end Coupling
