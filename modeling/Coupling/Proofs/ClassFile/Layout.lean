import Coupling.ClassFile.Basic
import Coupling.Proofs.ClassFile.Descriptor
import Coupling.Proofs.ClassFile.Reads

/-!
# The layout of a class file

A class file as a value: its constants, members and attributes with all their
fields, the bytes that these are stored as, what makes it well formed, and the
classes that it refers to. How class files are read is mentioned in one place
only: the classes of a signature are those that its scan finds, since a signature
may be any text. Where it is one of the grammar, these are its class types.
-/

namespace Coupling.ClassFile

/-- A field of two bytes. -/
def word (value : UInt16) : List UInt8 :=
  numeral 2 value.toNat

/-- A table: the number of items and the items. -/
def counted {ι : Type} (encode : ι → List UInt8) (items : List ι) : List UInt8 :=
  numeral 2 items.length ++ items.flatMap encode

/-- A constant of the pool with its fields. Fields named after another constant hold the index of
one. -/
inductive PoolConstant where
  | utf8 (text : String)
  | integer (value : UInt32)
  | float (bits : UInt32)
  | long (value : UInt64)
  | double (bits : UInt64)
  | classRef (name : UInt16)
  | string (text : UInt16)
  | fieldRef (owner member : UInt16)
  | methodRef (owner member : UInt16)
  | interfaceMethodRef (owner member : UInt16)
  | nameAndType (name descriptor : UInt16)
  | methodHandle (kind : UInt8) (reference : UInt16)
  | methodType (descriptor : UInt16)
  | dynamic (bootstrap member : UInt16)
  | invokeDynamic (bootstrap member : UInt16)
  | moduleRef (name : UInt16)
  | packageRef (name : UInt16)
deriving DecidableEq

namespace PoolConstant

def encode : PoolConstant → List UInt8
  | utf8 text => [1] ++ numeral 2 (Utf8.encode text).length ++ Utf8.encode text
  | integer value => [3] ++ numeral 4 value.toNat
  | float bits => [4] ++ numeral 4 bits.toNat
  | long value => [5] ++ numeral 8 value.toNat
  | double bits => [6] ++ numeral 8 bits.toNat
  | classRef name => [7] ++ word name
  | string text => [8] ++ word text
  | fieldRef owner member => [9] ++ word owner ++ word member
  | methodRef owner member => [10] ++ word owner ++ word member
  | interfaceMethodRef owner member => [11] ++ word owner ++ word member
  | nameAndType name descriptor => [12] ++ word name ++ word descriptor
  | methodHandle kind reference => [15, kind] ++ word reference
  | methodType descriptor => [16] ++ word descriptor
  | dynamic bootstrap member => [17] ++ word bootstrap ++ word member
  | invokeDynamic bootstrap member => [18] ++ word bootstrap ++ word member
  | moduleRef name => [19] ++ word name
  | packageRef name => [20] ++ word name

/-- The indices that a constant takes. No constant stands at the second index of a long or
double. -/
def slots (constant : PoolConstant) : List (Option PoolConstant) :=
  match constant with
  | long _ | double _ => [some constant, none]
  | _ => [some constant]

def texts : PoolConstant → List String
  | utf8 text => [text]
  | _ => []

/-- The names that a class has in the pool. -/
def classNames : PoolConstant → List UInt16
  | classRef name => [name]
  | _ => []

/-- The descriptors that a constant refers to. -/
def descriptors : PoolConstant → List UInt16
  | nameAndType _ descriptor => [descriptor]
  | methodType descriptor => [descriptor]
  | _ => []

end PoolConstant

mutual

/-- An annotation: its type, and values for elements of it. -/
inductive AnnotationEntry where
  | mk (type : UInt16) (pairs : List ElementPair)

/-- The name of an element and its value. -/
inductive ElementPair where
  | mk (name : UInt16) (value : ElementValue)

/-- The value of an element. A primitive or text is a tag and the index of a constant. -/
inductive ElementValue where
  | constant (tag : UInt8) (index : UInt16)
  | enumConstant (type name : UInt16)
  | classLiteral (type : UInt16)
  | nested (entry : AnnotationEntry)
  | array (values : List ElementValue)

end

/-- The fields of an annotation, pair or value that stand before those of the next inner one. -/
inductive AnnotationPart where
  | entry (type : UInt16) (pairs : Nat)
  | pair (name : UInt16)
  | constant (tag : UInt8) (index : UInt16)
  | enumConstant (type name : UInt16)
  | classLiteral (type : UInt16)
  | nested
  | array (values : Nat)

namespace AnnotationPart

def encode : AnnotationPart → List UInt8
  | entry type pairs => word type ++ numeral 2 pairs
  | pair name => word name
  | constant tag index => [tag] ++ word index
  | enumConstant type name => ['e'.toUInt8] ++ word type ++ word name
  | classLiteral type => ['c'.toUInt8] ++ word type
  | nested => ['@'.toUInt8]
  | array values => ['['.toUInt8] ++ numeral 2 values

/-- The descriptors that a part refers to: the types of annotations, enum constants and class
literals. -/
def descriptors : AnnotationPart → List UInt16
  | entry type _ => [type]
  | enumConstant type _ => [type]
  | classLiteral type => [type]
  | _ => []

/-- Counts fit their fields, and the tag of a constant is that of no other kind of value. -/
def Fits : AnnotationPart → Prop
  | entry _ pairs => pairs < 65536
  | array values => values < 65536
  | constant tag _ => tag ∉ ['e', 'c', '@', '['].map Char.toUInt8
  | _ => True

instance : DecidablePred Fits
  | entry _ _ | array _ => Nat.decLt _ _
  | constant tag _ => inferInstanceAs (Decidable (tag ∉ ['e', 'c', '@', '['].map Char.toUInt8))
  | pair _ | enumConstant _ _ | classLiteral _ | nested => .isTrue trivial

end AnnotationPart

-- The parts of an annotation in the order in which they are stored.
mutual

def AnnotationEntry.parts : AnnotationEntry → List AnnotationPart
  | .mk type pairs => .entry type pairs.length :: pairParts pairs

def ElementPair.parts : ElementPair → List AnnotationPart
  | .mk name value => .pair name :: value.parts

def ElementValue.parts : ElementValue → List AnnotationPart
  | .constant tag index => [.constant tag index]
  | .enumConstant type name => [.enumConstant type name]
  | .classLiteral type => [.classLiteral type]
  | .nested entry => .nested :: entry.parts
  | .array values => .array values.length :: valueParts values

def pairParts : List ElementPair → List AnnotationPart
  | [] => []
  | pair :: rest => pair.parts ++ pairParts rest

def valueParts : List ElementValue → List AnnotationPart
  | [] => []
  | value :: rest => value.parts ++ valueParts rest

end

/-- What an attribute holds. An attribute of no kind that names classes is any data. -/
inductive AttributeBody where
  | signature (text : UInt16)
  | annotations (table : List AnnotationEntry)
  | parameterAnnotations (tables : List (List AnnotationEntry))
  | data (bytes : List UInt8)

def AnnotationEntry.encode (entry : AnnotationEntry) : List UInt8 :=
  entry.parts.flatMap AnnotationPart.encode

namespace AttributeBody

def encode : AttributeBody → List UInt8
  | signature text => word text
  | annotations table => counted AnnotationEntry.encode table
  | parameterAnnotations tables =>
    numeral 1 tables.length ++ tables.flatMap (counted AnnotationEntry.encode)
  | data bytes => bytes

/-- The tables of annotations that an attribute holds. -/
def annotationTables : AttributeBody → List (List AnnotationEntry)
  | annotations table => [table]
  | parameterAnnotations tables => tables
  | _ => []

/-- The parts of all annotations that an attribute holds. -/
def parts (body : AttributeBody) : List AnnotationPart :=
  body.annotationTables.flatten.flatMap AnnotationEntry.parts

/-- The descriptors that an attribute refers to. -/
def descriptors (body : AttributeBody) : List UInt16 :=
  body.parts.flatMap AnnotationPart.descriptors

/-- The signatures that an attribute refers to. -/
def signatures : AttributeBody → List UInt16
  | signature text => [text]
  | _ => []

/-- The name of an attribute says what the attribute holds. -/
def HasName : AttributeBody → String → Prop
  | signature _, name => name = "Signature"
  | annotations _, name =>
    name = "RuntimeVisibleAnnotations" ∨ name = "RuntimeInvisibleAnnotations"
  | parameterAnnotations _, name =>
    name = "RuntimeVisibleParameterAnnotations" ∨ name = "RuntimeInvisibleParameterAnnotations"
  | data _, name =>
    name ∉ ["Signature", "RuntimeVisibleAnnotations", "RuntimeInvisibleAnnotations",
      "RuntimeVisibleParameterAnnotations", "RuntimeInvisibleParameterAnnotations"]

instance (name : String) : DecidablePred (HasName · name)
  | signature _ => inferInstanceAs (Decidable (name = _))
  | annotations _ | parameterAnnotations _ => inferInstanceAs (Decidable (name = _ ∨ name = _))
  | data _ => inferInstanceAs (Decidable (name ∉ _))

end AttributeBody

structure Attribute where
  name : UInt16
  body : AttributeBody

def Attribute.encode (entry : Attribute) : List UInt8 :=
  word entry.name ++ numeral 4 entry.body.encode.length ++ entry.body.encode

/-- A field or method. -/
structure Member where
  access : UInt16
  name : UInt16
  descriptor : UInt16
  attributes : List Attribute

def Member.encode (member : Member) : List UInt8 :=
  word member.access ++ word member.name ++ word member.descriptor ++
    counted Attribute.encode member.attributes

/-- A class file with all its fields. -/
structure Layout where
  minor : UInt16
  major : UInt16
  constants : List PoolConstant
  access : UInt16
  thisClass : UInt16
  superClass : UInt16
  interfaces : List UInt16
  fields : List Member
  methods : List Member
  attributes : List Attribute

namespace Layout

/-- The constants by index. There is none at index zero. -/
def slots (layout : Layout) : List (Option PoolConstant) :=
  none :: layout.constants.flatMap PoolConstant.slots

def encode (layout : Layout) : List UInt8 :=
  numeral 4 0xCAFEBABE ++ word layout.minor ++ word layout.major ++
    numeral 2 layout.slots.length ++ layout.constants.flatMap PoolConstant.encode ++
    word layout.access ++ word layout.thisClass ++ word layout.superClass ++
    counted word layout.interfaces ++ counted Member.encode layout.fields ++
    counted Member.encode layout.methods ++ counted Attribute.encode layout.attributes

/-- The text at an index. -/
def text? (layout : Layout) (index : UInt16) : Option String :=
  match layout.slots[index.toNat]? with
  | some (some (.utf8 text)) => some text
  | _ => none

/-- The internal name of the class at an index. -/
def className? (layout : Layout) (index : UInt16) : Option String :=
  match layout.slots[index.toNat]? with
  | some (some (.classRef name)) => layout.text? name
  | _ => none

def members (layout : Layout) : List Member :=
  layout.fields ++ layout.methods

/-- The attributes of the class and of its members. -/
def allAttributes (layout : Layout) : List Attribute :=
  layout.members.flatMap Member.attributes ++ layout.attributes

/-- The names of all classes in the pool. -/
def classNames (layout : Layout) : List UInt16 :=
  layout.constants.flatMap PoolConstant.classNames

/-- Every descriptor that the file refers to, apart from the names of array classes. -/
def descriptors (layout : Layout) : List UInt16 :=
  layout.constants.flatMap PoolConstant.descriptors ++ layout.members.map Member.descriptor ++
    layout.allAttributes.flatMap fun entry => entry.body.descriptors

/-- Every signature that the file refers to. -/
def signatures (layout : Layout) : List UInt16 :=
  layout.allAttributes.flatMap fun entry => entry.body.signatures

section Indices

variable {layout : Layout} {index : UInt16}

theorem mem_classNames :
    index ∈ layout.classNames ↔ ∃ constant ∈ layout.constants, index ∈ constant.classNames :=
  List.mem_flatMap

theorem mem_descriptors :
    index ∈ layout.descriptors ↔
      (∃ constant ∈ layout.constants, index ∈ constant.descriptors) ∨
      (∃ member ∈ layout.members, member.descriptor = index) ∨
      ∃ entry ∈ layout.allAttributes, index ∈ entry.body.descriptors := by
  simp [descriptors]

theorem mem_signatures :
    index ∈ layout.signatures ↔ ∃ entry ∈ layout.allAttributes, index ∈ entry.body.signatures :=
  List.mem_flatMap

end Indices

/-- The file refers to a class. -/
inductive RefersTo (layout : Layout) : String → Prop where
  | classEntry {index : UInt16} {text : String}
      (used : index ∈ layout.classNames) (named : layout.text? index = some text)
      (plain : text.toList.head? ≠ some '[') : RefersTo layout (qualified text.toList)
  | arrayClass {index : UInt16} {text : String} {internal : List Char}
      (used : index ∈ layout.classNames) (named : layout.text? index = some text)
      (array : text.toList.head? = some '[') (holds : ObjectType text.toList internal) :
      RefersTo layout (qualified internal)
  | descriptor {index : UInt16} {text : String} {internal : List Char}
      (used : index ∈ layout.descriptors) (named : layout.text? index = some text)
      (holds : ObjectType text.toList internal) : RefersTo layout (qualified internal)
  | signature {index : UInt16} {text name : String}
      (used : index ∈ layout.signatures) (named : layout.text? index = some text)
      (holds : name ∈ signatureNames text) : RefersTo layout name

/-- Counts and lengths fit their fields, and indices lead to constants of the kind that they
should. -/
structure WellFormed (layout : Layout) : Prop where
  slots_lt : layout.slots.length < 65536
  texts_lt : ∀ constant ∈ layout.constants, ∀ text ∈ constant.texts,
    (Utf8.encode text).length < 65536
  interfaces_lt : layout.interfaces.length < 65536
  fields_lt : layout.fields.length < 65536
  methods_lt : layout.methods.length < 65536
  attributes_lt : layout.attributes.length < 65536
  memberAttributes_lt : ∀ member ∈ layout.members, member.attributes.length < 65536
  bodies_lt : ∀ entry ∈ layout.allAttributes, entry.body.encode.length < 4294967296
  tables_lt : ∀ entry ∈ layout.allAttributes,
    entry.body.annotationTables.length < 256 ∧
    ∀ table ∈ entry.body.annotationTables, table.length < 65536
  parts_fit : ∀ entry ∈ layout.allAttributes, ∀ part ∈ entry.body.parts, part.Fits
  thisClass_named : (layout.className? layout.thisClass).isSome
  classes_named : ∀ index ∈ layout.classNames, (layout.text? index).isSome
  descriptors_named : ∀ index ∈ layout.descriptors, (layout.text? index).isSome
  signatures_named : ∀ index ∈ layout.signatures, (layout.text? index).isSome
  attributes_named : ∀ entry ∈ layout.allAttributes,
    ∃ name ∈ layout.text? entry.name, entry.body.HasName name

end Layout

end Coupling.ClassFile
