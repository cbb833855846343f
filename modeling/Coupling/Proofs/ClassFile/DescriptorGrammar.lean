import Coupling.Name
import Coupling.Proofs.ClassFile.Descriptor
import Coupling.Proofs.ClassFile.Signature

/-!
# The grammar of descriptors

The descriptors of fields and methods as trees, with the text of each tree and
the classes that it names. Descriptors are scanned in two ways. The scan of a
descriptor looks for an `L` and the semicolon after it, whatever stands between
types. The scan of a signature also knows type variables, type arguments and
nested classes, none of which occur in a descriptor, and steps over one
character at a time. On the text of a descriptor both find exactly the classes
that it names, although a class name may hold any of the letters that start a
type.
-/

namespace Coupling.ClassFile

/-- The name of a class in its package. -/
structure ObjectName where
  package : List Identifier
  name : Identifier

/-- The type of a field, of a parameter, or of a result. -/
inductive FieldType where
  | base (type : BaseType)
  | object (name : ObjectName)
  | array (element : FieldType)

/-- The descriptor of a field or method. A method without a result has no result type. -/
inductive TypeDescriptor where
  | ofField (type : FieldType)
  | ofMethod (parameters : List FieldType) (result : Option FieldType)

/-- The name with a separator after each part of the package. -/
def ObjectName.textWith (separator : Char) (object : ObjectName) : List Char :=
  packageText separator object.package ++ object.name.chars

namespace FieldType

def text : FieldType → List Char
  | base type => [type.letter]
  | object name => 'L' :: (name.textWith '/' ++ [';'])
  | array element => '[' :: element.text

def objects : FieldType → List ObjectName
  | base _ => []
  | object name => [name]
  | array element => element.objects

end FieldType

namespace TypeDescriptor

def text : TypeDescriptor → List Char
  | ofField type => type.text
  | ofMethod parameters result =>
      '(' :: (parameters.flatMap FieldType.text ++ ')' :: result.elim ['V'] FieldType.text)

/-- The classes that occur in a descriptor. -/
def objects : TypeDescriptor → List ObjectName
  | ofField type => type.objects
  | ofMethod parameters result =>
      parameters.flatMap FieldType.objects ++ result.elim [] FieldType.objects

/-- The names of the classes that occur in a descriptor. -/
def classNames (descriptor : TypeDescriptor) : NameSet :=
  .ofList (descriptor.objects.map fun object => String.ofList (object.textWith '.'))

end TypeDescriptor

/-- The names of classes in internal form. -/
def internalTexts (objects : List ObjectName) : List (List Char) :=
  objects.map (ObjectName.textWith '/')

theorem internalTexts_append (left right : List ObjectName) :
    internalTexts (left ++ right) = internalTexts left ++ internalTexts right :=
  List.map_append

theorem ObjectName.qualified_textWith (object : ObjectName) :
    qualified (object.textWith '/') = String.ofList (object.textWith '.') := by
  have named := ClassType.map_qualified_namesWith (.mk object.package (.mk object.name []) [])
  simp only [ClassType.names, ClassType.namesWith, namesWithin, SimpleClass.name, List.map_cons,
    List.map_nil, List.cons.injEq, and_true] at named
  exact named

theorem mem_map_qualified_internalTexts {objects : List ObjectName} {name : String} :
    name ∈ (internalTexts objects).map qualified ↔
      name ∈ objects.map fun object => String.ofList (object.textWith '.') := by
  simp [internalTexts, ObjectName.qualified_textWith]

theorem exists_closedAt_append {inside rest : List Char} {holds : List Char → List Char → Prop}
    (closed : ';' ∉ inside) :
    (∃ before after, ClosedAt (inside ++ ';' :: rest) before after ∧ holds before after) ↔
      holds inside rest := by
  induction inside generalizing holds with
  | nil => exact exists_closedAt_semicolon
  | cons c inside ih =>
      rw [List.mem_cons, not_or] at closed
      rw [List.cons_append, exists_closedAt_cons (Ne.symm closed.1)]
      exact ih closed.2

theorem ObjectName.semicolon_not_mem (object : ObjectName) : ';' ∉ object.textWith '/' := by
  intro mem
  obtain inPackage | inName := List.mem_append.mp mem
  · have ends := SignatureScan.endsName_of_mem_packageText object.package ';' inPackage
    simp [SignatureScan.endsName] at ends
  · exact Identifier.ne_of_mem inName (by decide) rfl

namespace ObjectType

variable {rest name : List Char}

/-- A type holds the class that it names, and what follows it is scanned from its start. -/
theorem text_append_iff (type : FieldType) :
    ObjectType (type.text ++ rest) name ↔
      name ∈ internalTexts type.objects ∨ ObjectType rest name := by
  induction type with
  | base type =>
      have other : type.letter ≠ 'L' := by cases type <;> decide
      simpa [FieldType.text, FieldType.objects, internalTexts] using cons_iff_of_ne other
  | object object =>
      have split : FieldType.text (.object object) ++ rest =
          'L' :: (object.textWith '/' ++ ';' :: rest) := by simp [FieldType.text]
      rw [split, cons_iff_of_opening, exists_closedAt_append object.semicolon_not_mem]
      simp [FieldType.objects, internalTexts]
  | array element ih =>
      rw [FieldType.text, List.cons_append, cons_iff_of_ne (by decide), ih, FieldType.objects]

theorem flatMap_text_append_iff (types : List FieldType) :
    ObjectType (types.flatMap FieldType.text ++ rest) name ↔
      name ∈ internalTexts (types.flatMap FieldType.objects) ∨ ObjectType rest name := by
  induction types with
  | nil => simp [internalTexts]
  | cons type types ih =>
      rw [List.flatMap_cons, List.append_assoc, text_append_iff, ih, List.flatMap_cons,
        internalTexts_append, List.mem_append, or_assoc]

theorem text_iff (type : FieldType) :
    ObjectType type.text name ↔ name ∈ internalTexts type.objects := by
  have whole : ObjectType (type.text ++ []) name ↔
      name ∈ internalTexts type.objects ∨ ObjectType [] name := text_append_iff type
  simpa [not_nil] using whole

theorem descriptor_iff (descriptor : TypeDescriptor) :
    ObjectType descriptor.text name ↔ name ∈ internalTexts descriptor.objects := by
  cases descriptor with
  | ofField type => exact text_iff type
  | ofMethod parameters result =>
      have after : ObjectType (result.elim ['V'] FieldType.text) name ↔
          name ∈ internalTexts (result.elim [] FieldType.objects) := by
        cases result with
        | none => simp [cons_iff_of_ne, not_nil, internalTexts]
        | some type => exact text_iff type
      rw [TypeDescriptor.text, cons_iff_of_ne (by decide), flatMap_text_append_iff,
        cons_iff_of_ne (by decide), after, TypeDescriptor.objects, internalTexts_append,
        List.mem_append]

end ObjectType

/-- The type as it stands in signatures. -/
def FieldType.toJava : FieldType → JavaType
  | base type => .base type
  | object name => .reference (.classType (.mk name.package (.mk name.name []) []))
  | array element => .reference (.array element.toJava)

theorem FieldType.text_toJava (type : FieldType) : type.toJava.text = type.text := by
  induction type with
  | base type => rfl
  | object object =>
      simp [toJava, text, JavaType.text, ReferenceType.text, ClassType.text, SimpleClass.text,
        bracketedText, nestedText, ObjectName.textWith]
  | array element ih => rw [toJava, JavaType.text, ReferenceType.text, ih, text]

namespace SignatureScan

theorem internalNames_toJava (type : FieldType) :
    internalNames type.toJava.classTypes = internalTexts type.objects := by
  induction type with
  | base type => rfl
  | object object => rfl
  | array element ih => exact ih

theorem passes_fieldType (type : FieldType) (rest : List Char) :
    Passes false [] (type.text ++ rest) (internalTexts type.objects) rest := by
  have passes := passes_javaType type.toJava false [] inside_body rest
  rwa [FieldType.text_toJava, internalNames_toJava] at passes

theorem passes_parameters (types : List FieldType) (rest : List Char) :
    Passes false [] (types.flatMap FieldType.text ++ rest)
      (internalTexts (types.flatMap FieldType.objects)) rest := by
  induction types with
  | nil => exact .refl rest
  | cons type types ih =>
      rw [List.flatMap_cons, List.append_assoc, List.flatMap_cons, internalTexts_append]
      exact (passes_fieldType type _).trans ih

theorem passes_descriptor (descriptor : TypeDescriptor) :
    Passes false [] descriptor.text (internalTexts descriptor.objects) [] := by
  cases descriptor with
  | ofField type =>
      have passes := passes_fieldType type []
      rwa [List.append_nil] at passes
  | ofMethod parameters result =>
      have after : Passes false [] (result.elim ['V'] FieldType.text)
          (internalTexts (result.elim [] FieldType.objects)) [] := by
        cases result with
        | none => exact (Passes.refl []).skip (by decide)
        | some type =>
            have passes := passes_fieldType type []
            rwa [List.append_nil] at passes
      have closing : ')' ∉ ['L', '.', 'T', '<', '>', ';'] := by decide
      have passes := (passes_parameters parameters _).trans (after.skip closing)
      rw [← internalTexts_append] at passes
      exact passes.skip (by decide)

theorem head?_text (descriptor : TypeDescriptor) : descriptor.text.head? ≠ some '<' := by
  cases descriptor with
  | ofField type =>
      cases type with
      | base type => cases type <;> decide
      | object name => simp [TypeDescriptor.text, FieldType.text]
      | array element => simp [TypeDescriptor.text, FieldType.text]
  | ofMethod parameters result => simp [TypeDescriptor.text]

theorem mem_signatureNames_of_passes {text : List Char} {names : List (List Char)} {name : String}
    (unbracketed : text.head? ≠ some '<') (passes : Passes false [] text names []) :
    name ∈ signatureNames (String.ofList text) ↔ name ∈ names.map qualified := by
  obtain ⟨last, found, finds⟩ := passes [] []
  rw [← start_of_unbracketed unbracketed] at finds
  have ran := run_of_reaches finds.reaches rfl (length_rest_start_le text)
  simp [signatureNames, ran, finds.found_iff, found_start]

end SignatureScan

/-- On every descriptor the scan of descriptors and the scan of signatures find the same classes,
namely those that the descriptor names. -/
theorem descriptor_scans_agree (descriptor : TypeDescriptor) :
    NameSet.ofList (descriptorNames (String.ofList descriptor.text)) = descriptor.classNames ∧
    NameSet.ofList (signatureNames (String.ofList descriptor.text)) = descriptor.classNames := by
  have described (name : String) :
      name ∈ descriptorNames (String.ofList descriptor.text) ↔
        name ∈ (internalTexts descriptor.objects).map qualified := by
    simp [mem_descriptorNames, ObjectType.descriptor_iff]
  have signed (name : String) :
      name ∈ signatureNames (String.ofList descriptor.text) ↔
        name ∈ (internalTexts descriptor.objects).map qualified :=
    SignatureScan.mem_signatureNames_of_passes (SignatureScan.head?_text descriptor)
      (SignatureScan.passes_descriptor descriptor)
  have named (names : List String)
      (same : ∀ name, name ∈ names ↔ name ∈ (internalTexts descriptor.objects).map qualified) :
      NameSet.ofList names = descriptor.classNames := by
    apply Std.ExtTreeSet.ext_mem
    intro name
    simp only [TypeDescriptor.classNames, NameSet.ofList, Std.ExtTreeSet.mem_ofList,
      List.contains_iff_mem, same, mem_map_qualified_internalTexts]
  exact ⟨named _ described, named _ signed⟩

end Coupling.ClassFile
