import Coupling.ClassFile.Descriptor

/-!
# The grammar of signatures

The signatures of classes, methods and fields as trees, with the text of each
tree and the class types that occur in it. Identifiers hold none of the
characters that the grammar uses around them, so a text shows where each of
them ends; beyond that nothing is asked of them.
-/

namespace Coupling.ClassFile

/-- The characters that no identifier holds. -/
def reserved : List Char := ['.', ';', '[', '/', '<', '>', ':']

structure Identifier where
  chars : List Char
  unreserved : ∀ c ∈ chars, c ∉ reserved

inductive BaseType where
  | byte | char | double | float | int | long | short | boolean

/-- A type argument may stand for every type above or below a bound. -/
inductive Wildcard where
  | extending | containing

mutual

/-- Any type but the missing result of a method. -/
inductive JavaType where
  | base (type : BaseType)
  | reference (type : ReferenceType)

inductive ReferenceType where
  | classType (type : ClassType)
  | typeVariable (name : Identifier)
  | array (element : JavaType)

/-- A class in its package, and the classes nested in it down to the one that is meant. -/
inductive ClassType where
  | mk (package : List Identifier) (outermost : SimpleClass) (nested : List SimpleClass)

/-- One class of a class type with its type arguments, if it has any. -/
inductive SimpleClass where
  | mk (name : Identifier) (arguments : List TypeArgument)

inductive TypeArgument where
  | unbounded
  | bounded (wildcard : Option Wildcard) (type : ReferenceType)

end

/-- A type parameter. The bound that may be a class is left out where only interfaces are bounds. -/
structure TypeParameter where
  name : Identifier
  classBound : Option ReferenceType
  interfaceBounds : List ReferenceType

inductive Thrown where
  | classType (type : ClassType)
  | typeVariable (name : Identifier)

/-- A signature. A method without a result has no result type. -/
inductive Signature where
  | ofClass (parameters : List TypeParameter) (superclass : ClassType) (interfaces : List ClassType)
  | ofMethod (parameters : List TypeParameter) (arguments : List JavaType)
      (result : Option JavaType) (thrown : List Thrown)
  | ofField (type : ReferenceType)

def BaseType.letter : BaseType → Char
  | byte => 'B'
  | char => 'C'
  | double => 'D'
  | float => 'F'
  | int => 'I'
  | long => 'J'
  | short => 'S'
  | boolean => 'Z'

def Wildcard.sign : Wildcard → Char
  | extending => '+'
  | containing => '-'

def variableText (name : Identifier) : List Char :=
  'T' :: (name.chars ++ [';'])

/-- The identifiers of a package, each with a separator after it. -/
def packageText (separator : Char) (package : List Identifier) : List Char :=
  package.flatMap fun identifier => identifier.chars ++ [separator]

mutual

def JavaType.text : JavaType → List Char
  | .base type => [type.letter]
  | .reference type => type.text

def ReferenceType.text : ReferenceType → List Char
  | .classType type => type.text
  | .typeVariable name => variableText name
  | .array element => '[' :: element.text

def ClassType.text : ClassType → List Char
  | .mk package outermost nested =>
      'L' :: (packageText '/' package ++ outermost.text ++ nestedText nested ++ [';'])

def SimpleClass.text : SimpleClass → List Char
  | .mk name arguments => name.chars ++ bracketedText arguments

def nestedText : List SimpleClass → List Char
  | [] => []
  | inner :: nested => '.' :: (inner.text ++ nestedText nested)

/-- Type arguments in angle brackets, which are left out where there are none. -/
def bracketedText : List TypeArgument → List Char
  | [] => []
  | argument :: arguments => '<' :: (argument.text ++ argumentsText arguments ++ ['>'])

def argumentsText : List TypeArgument → List Char
  | [] => []
  | argument :: arguments => argument.text ++ argumentsText arguments

def TypeArgument.text : TypeArgument → List Char
  | .unbounded => ['*']
  | .bounded wildcard type => (wildcard.map Wildcard.sign).toList ++ type.text

end

def TypeParameter.text (parameter : TypeParameter) : List Char :=
  parameter.name.chars ++ ':' :: (parameter.classBound.toList.flatMap ReferenceType.text ++
    parameter.interfaceBounds.flatMap fun bound => ':' :: bound.text)

/-- Type parameters in angle brackets, which are left out where there are none. -/
def parametersText : List TypeParameter → List Char
  | [] => []
  | parameter :: parameters =>
      '<' :: (parameter.text ++ parameters.flatMap TypeParameter.text ++ ['>'])

def Thrown.text : Thrown → List Char
  | classType type => '^' :: type.text
  | typeVariable name => '^' :: variableText name

def Signature.parameters : Signature → List TypeParameter
  | ofClass parameters _ _ => parameters
  | ofMethod parameters _ _ _ => parameters
  | ofField _ => []

/-- The text after the type parameters. -/
def Signature.bodyText : Signature → List Char
  | ofClass _ superclass interfaces => superclass.text ++ interfaces.flatMap ClassType.text
  | ofMethod _ arguments result thrown =>
      '(' :: (arguments.flatMap JavaType.text ++
        ')' :: (result.elim ['V'] JavaType.text ++ thrown.flatMap Thrown.text))
  | ofField type => type.text

def Signature.text (signature : Signature) : List Char :=
  parametersText signature.parameters ++ signature.bodyText

mutual

def JavaType.classTypes : JavaType → List ClassType
  | .base _ => []
  | .reference type => type.classTypes

def ReferenceType.classTypes : ReferenceType → List ClassType
  | .classType type => type.classTypes
  | .typeVariable _ => []
  | .array element => element.classTypes

/-- The class type and the class types of the type arguments in it. -/
def ClassType.classTypes : ClassType → List ClassType
  | .mk package outermost nested =>
      .mk package outermost nested :: (outermost.classTypes ++ nestedClassTypes nested)

def SimpleClass.classTypes : SimpleClass → List ClassType
  | .mk _ arguments => argumentsClassTypes arguments

def nestedClassTypes : List SimpleClass → List ClassType
  | [] => []
  | inner :: nested => inner.classTypes ++ nestedClassTypes nested

def argumentsClassTypes : List TypeArgument → List ClassType
  | [] => []
  | argument :: arguments => argument.classTypes ++ argumentsClassTypes arguments

def TypeArgument.classTypes : TypeArgument → List ClassType
  | .unbounded => []
  | .bounded _ type => type.classTypes

end

def TypeParameter.bounds (parameter : TypeParameter) : List ReferenceType :=
  parameter.classBound.toList ++ parameter.interfaceBounds

def TypeParameter.classTypes (parameter : TypeParameter) : List ClassType :=
  parameter.bounds.flatMap ReferenceType.classTypes

def Thrown.classTypes : Thrown → List ClassType
  | classType type => type.classTypes
  | typeVariable _ => []

def Signature.bodyClassTypes : Signature → List ClassType
  | ofClass _ superclass interfaces =>
      superclass.classTypes ++ interfaces.flatMap ClassType.classTypes
  | ofMethod _ arguments result thrown =>
      arguments.flatMap JavaType.classTypes ++
        (result.elim [] JavaType.classTypes ++ thrown.flatMap Thrown.classTypes)
  | ofField type => type.classTypes

/-- The class types that occur anywhere in a signature. -/
def Signature.classTypes (signature : Signature) : List ClassType :=
  signature.parameters.flatMap TypeParameter.classTypes ++ signature.bodyClassTypes

def ReferenceType.isArray : ReferenceType → Bool
  | array _ => true
  | _ => false

/-- The type parameter has a bound, as compilers write one for each, and none of its bounds is an
array, as the language has it. -/
structure TypeParameter.Bounded (parameter : TypeParameter) : Prop where
  bounds_ne_nil : parameter.bounds ≠ []
  isArray_eq_false : ∀ bound ∈ parameter.bounds, bound.isArray = false

def SimpleClass.name : SimpleClass → Identifier
  | mk name _ => name

/-- The name of each of the nested classes, which comes after the name of the one around it. -/
def namesWithin (outer : List Char) : List SimpleClass → List (List Char)
  | [] => []
  | inner :: nested =>
      let name := outer ++ '$' :: inner.name.chars
      name :: namesWithin name nested

namespace ClassType

/-- The names of the classes of a class type, the outermost first. -/
def namesWith (separator : Char) : ClassType → List (List Char)
  | mk package outermost nested =>
      let name := packageText separator package ++ outermost.name.chars
      name :: namesWithin name nested

def names (type : ClassType) : List String :=
  (type.namesWith '.').map String.ofList

end ClassType

theorem Identifier.ne_of_mem {identifier : Identifier} {c mark : Char}
    (mem : c ∈ identifier.chars) (marks : mark ∈ reserved) : c ≠ mark := by
  intro same
  exact identifier.unreserved c mem (same ▸ marks)

section Names

/-- The text with dots in place of slashes. -/
private def dotted (text : List Char) : List Char :=
  text.map fun c => if c = '/' then '.' else c

private theorem dotted_append (left right : List Char) :
    dotted (left ++ right) = dotted left ++ dotted right :=
  List.map_append

private theorem dotted_chars (identifier : Identifier) :
    dotted identifier.chars = identifier.chars := by
  have kept : ∀ c ∈ identifier.chars, (if c = '/' then '.' else c) = c := by
    intro c mem
    exact if_neg (Identifier.ne_of_mem mem (by decide))
  rw [dotted, List.map_congr_left kept, List.map_id']

private theorem dotted_packageText (package : List Identifier) :
    dotted (packageText '/' package) = packageText '.' package := by
  induction package with
  | nil => rfl
  | cons identifier package ih =>
      simp only [packageText, List.flatMap_cons, dotted_append, dotted_chars] at ih ⊢
      rw [ih]
      rfl

private theorem map_dotted_namesWithin (outer : List Char) (nested : List SimpleClass) :
    (namesWithin outer nested).map dotted = namesWithin (dotted outer) nested := by
  induction nested generalizing outer with
  | nil => rfl
  | cons inner nested ih =>
      have name : dotted (outer ++ '$' :: inner.name.chars) =
          dotted outer ++ '$' :: inner.name.chars := by
        rw [dotted_append, ← List.singleton_append, dotted_append, dotted_chars]
        rfl
      simp only [namesWithin, List.map_cons, ih, name]

/-- With dots in place of slashes, the internal names of a class type are its names. -/
theorem ClassType.map_qualified_namesWith (type : ClassType) :
    (type.namesWith '/').map qualified = type.names := by
  obtain ⟨package, outermost, nested⟩ := type
  have name : dotted (packageText '/' package ++ outermost.name.chars) =
      packageText '.' package ++ outermost.name.chars := by
    rw [dotted_append, dotted_packageText, dotted_chars]
  have internal : qualified = String.ofList ∘ dotted := rfl
  rw [internal, ← List.map_map, names]
  simp only [namesWith, List.map_cons, map_dotted_namesWithin, name]

end Names

end Coupling.ClassFile
