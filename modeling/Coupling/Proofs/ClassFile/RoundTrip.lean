import Coupling.Proofs.ClassFile.Annotations
import Coupling.Proofs.ClassFile.Signature
import Mathlib.Data.Nat.Bitwise

/-!
# Reading undoes the layout

Every part of a well-formed class file is read from the bytes that it is stored
as, with the classes that it names as the result. Together: reading a stored
class file gives its name and the classes that it refers to. If its signatures
are those of the grammar, the classes that they name are their class types.
-/

namespace Coupling.ClassFile.Layout

variable {layout : Layout}

/-- The classes of the signature at an index. -/
def signed (layout : Layout) (index : UInt16) : List String :=
  (layout.text? index).toList.flatMap signatureNames

def bodyNames (layout : Layout) : AttributeBody → List String
  | .signature index => layout.signed index
  | .annotations table => layout.tableNames table
  | .parameterAnnotations tables => tables.flatMap layout.tableNames
  | .data _ => []

/-- What an attribute must satisfy to be read. -/
structure BodyFits (layout : Layout) (body : AttributeBody) : Prop where
  length_lt : body.encode.length < 4294967296
  tables_lt : body.annotationTables.length < 256
  table_lt : ∀ table ∈ body.annotationTables, table.length < 65536
  parts : ∀ part ∈ body.parts, layout.PartFits part
  signatures : ∀ index ∈ body.signatures, (layout.text? index).isSome

theorem reads_signed {index : UInt16} (named : (layout.text? index).isSome) :
    Reads (attributeBody layout.pool "Signature") (word index) (layout.signed index) := by
  rcases Option.isSome_iff_exists.mp named with ⟨text, named⟩
  have signed_eq : layout.signed index = signatureNames text := by simp [signed, named]
  rw [signed_eq, ← List.append_nil (word index)]
  exact (Reads.word index).bind (.bindOk (utf8_pool named) (.pure _))

theorem BodyFits.reads_table {body : AttributeBody} (fits : layout.BodyFits body)
    (table : List AnnotationEntry) (tableMem : table ∈ body.annotationTables) :
    Reads (annotations layout.pool) (counted AnnotationEntry.encode table)
      (layout.tableNames table) := by
  refine reads_annotations (fits.table_lt table tableMem) fun part partMem => fits.parts part ?_
  rcases List.mem_flatMap.mp partMem with ⟨entry, entryMem, partMem⟩
  exact List.mem_flatMap.mpr ⟨entry, List.mem_flatten_of_mem tableMem entryMem, partMem⟩

theorem BodyFits.reads_tables {tables : List (List AnnotationEntry)}
    (fits : layout.BodyFits (.parameterAnnotations tables)) :
    Reads (do
        let parameters ← Reader.u8
        let names ← Reader.repeated (annotations layout.pool) parameters []
        return names.flatten)
      (AttributeBody.parameterAnnotations tables).encode (tables.flatMap layout.tableNames) := by
  have count : Reads Reader.u8 (numeral 1 tables.length) tables.length := .number fits.tables_lt
  apply count.bind
  have each := Reads.repeated fits.reads_table []
  exact each.map rfl

theorem BodyFits.run {body : AttributeBody} {name : String} (fits : layout.BodyFits body)
    (hasName : body.HasName name) :
    ∃ cursor, attributeBody layout.pool name (.start body.encode) =
      (.ok (layout.bodyNames body), cursor) := by
  cases body with
  | signature index =>
      have read := reads_signed (fits.signatures index List.mem_cons_self)
      rw [hasName]
      exact ⟨_, read.run_all⟩
  | annotations table =>
      have read := fits.reads_table table List.mem_cons_self
      rcases hasName with rfl | rfl
      all_goals exact ⟨_, read.run_all⟩
  | parameterAnnotations tables =>
      have read := fits.reads_tables
      rcases hasName with rfl | rfl
      all_goals exact ⟨_, read.run_all⟩
  | data bytes =>
      refine ⟨.start bytes, ?_⟩
      simp only [AttributeBody.HasName, List.mem_cons, not_or] at hasName
      rw [attributeBody]
      · rfl
      all_goals simp [hasName]

theorem reads_attribute {entry : Attribute} (fits : layout.BodyFits entry.body)
    (named : ∃ name ∈ layout.text? entry.name, entry.body.HasName name) :
    Reads (attributeNames layout.pool) entry.encode (layout.bodyNames entry.body) := by
  rcases named with ⟨name, named, hasName⟩
  rcases fits.run hasName with ⟨cursor, run⟩
  have length : Reads Reader.u32 (numeral 4 entry.body.encode.length) entry.body.encode.length :=
    .number fits.length_lt
  have content : Reads (Reader.bytes entry.body.encode.length) entry.body.encode _ := .bytes rfl
  rw [Attribute.encode, List.append_assoc, ← List.append_nil (_ ++ entry.body.encode),
    List.append_assoc]
  exact (Reads.word entry.name).bind
    (.bindOk (utf8_pool named) (length.bind (content.bind (.within run))))

def attributeTableNames (layout : Layout) (entries : List Attribute) : List String :=
  entries.flatMap fun entry => layout.bodyNames entry.body

def memberNames (layout : Layout) (member : Member) : List String :=
  layout.described member.descriptor ++ layout.attributeTableNames member.attributes

/-- The classes that a class file names. -/
def names (layout : Layout) : List String :=
  layout.constants.flatMap layout.constantNames ++ layout.fields.flatMap layout.memberNames ++
    layout.methods.flatMap layout.memberNames ++ layout.attributeTableNames layout.attributes

namespace WellFormed

theorem bodyFits (wellFormed : layout.WellFormed) {entry : Attribute}
    (entryMem : entry ∈ layout.allAttributes) : layout.BodyFits entry.body where
  length_lt := wellFormed.bodies_lt entry entryMem
  tables_lt := (wellFormed.tables_lt entry entryMem).1
  table_lt := (wellFormed.tables_lt entry entryMem).2
  parts := by
    intro part partMem
    refine ⟨wellFormed.parts_fit entry entryMem part partMem, fun index indexMem => ?_⟩
    apply wellFormed.descriptors_named
    have inBody : index ∈ entry.body.descriptors := List.mem_flatMap.mpr ⟨part, partMem, indexMem⟩
    exact mem_descriptors.mpr (.inr (.inr ⟨entry, entryMem, inBody⟩))
  signatures := by
    intro index indexMem
    exact wellFormed.signatures_named index (mem_signatures.mpr ⟨entry, entryMem, indexMem⟩)

theorem reads_attributes (wellFormed : layout.WellFormed) {entries : List Attribute}
    (count_lt : entries.length < 65536) (within : ∀ entry ∈ entries, entry ∈ layout.allAttributes) :
    Reads (ClassFile.attributes layout.pool) (counted Attribute.encode entries)
      (layout.attributeTableNames entries) := by
  have each : ∀ entry ∈ entries,
      Reads (attributeNames layout.pool) entry.encode (layout.bodyNames entry.body) := by
    intro entry entryMem
    have entryMem := within entry entryMem
    have named := wellFormed.attributes_named entry entryMem
    exact reads_attribute (wellFormed.bodyFits entryMem) named
  exact (Reads.table each count_lt).map List.flatMap_def.symm

theorem reads_member (wellFormed : layout.WellFormed) {entry : Member}
    (entryMem : entry ∈ layout.members) :
    Reads (member layout.pool) entry.encode (layout.memberNames entry) := by
  have descriptor := wellFormed.descriptors_named entry.descriptor
    (mem_descriptors.mpr (.inr (.inl ⟨entry, entryMem, rfl⟩)))
  have attributed := wellFormed.reads_attributes (wellFormed.memberAttributes_lt entry entryMem)
    fun inner innerMem => List.mem_append_left _ (List.mem_flatMap.mpr ⟨entry, entryMem, innerMem⟩)
  rw [Member.encode, List.append_assoc, List.append_assoc]
  exact (Reads.skip (length_word entry.access)).bind
    ((Reads.skip (length_word entry.name)).bind
      ((reads_described descriptor).bind (attributed.map rfl)))

theorem reads_members (wellFormed : layout.WellFormed) {entries : List Member}
    (count_lt : entries.length < 65536) (within : ∀ entry ∈ entries, entry ∈ layout.members) :
    Reads (Reader.table (member layout.pool)) (counted Member.encode entries)
      (entries.map layout.memberNames) :=
  .table (fun entry entryMem => wellFormed.reads_member (within entry entryMem)) count_lt

theorem reads_interfaces {α : Type} {next : Reader α} {more : List UInt8} {value : α}
    (wellFormed : layout.WellFormed) (after : Reads next more value) :
    Reads (do
        let interfaces ← Reader.u16
        Reader.skip (2 * interfaces)
        next)
      (counted word layout.interfaces ++ more) value := by
  have count : Reads Reader.u16 (numeral 2 layout.interfaces.length) _ :=
    .number wellFormed.interfaces_lt
  have length : (layout.interfaces.flatMap word).length = 2 * layout.interfaces.length := by
    simp [List.length_flatMap, List.map_const', Nat.mul_comm]
  rw [counted, List.append_assoc]
  exact count.bind ((Reads.skip length).bind after)

/-- The class file that is read from the bytes of a layout. -/
theorem reads_file (wellFormed : layout.WellFormed) {internal : String}
    (this : layout.className? layout.thisClass = some internal) :
    Reads reader layout.encode
      ⟨qualified internal.toList, marksModule layout.access.toNat,
        (NameSet.ofList layout.names).erase (qualified internal.toList)⟩ := by
  have start : Reads Reader.u32 (numeral 4 0xCAFEBABE) magic := .number (by decide)
  have fields := wellFormed.reads_members wellFormed.fields_lt
    fun entry entryMem => List.mem_append_left _ entryMem
  have methods := wellFormed.reads_members wellFormed.methods_lt
    fun entry entryMem => List.mem_append_right _ entryMem
  have attributed := wellFormed.reads_attributes wellFormed.attributes_lt
    fun entry entryMem => List.mem_append_right _ entryMem
  simp only [encode, List.append_assoc]
  apply start.bind
  apply (Reads.skip (length_word layout.minor)).bind
  apply (Reads.skip (length_word layout.major)).bind
  rw [← List.append_assoc (numeral 2 layout.slots.length)]
  apply (reads_pool wellFormed).bind
  apply (Reads.word layout.access).bind
  apply (Reads.word layout.thisClass).bind
  refine .bindOk (className_pool this) (.bindOk wellFormed.names_pool ?_)
  refine (Reads.skip (length_word layout.superClass)).bind (wellFormed.reads_interfaces ?_)
  exact fields.bind (methods.bind (attributed.map rfl))

end WellFormed

theorem mem_bodyNames {body : AttributeBody} {name : String} :
    name ∈ layout.bodyNames body ↔
      (∃ index ∈ body.signatures, name ∈ layout.signed index) ∨
        ∃ index ∈ body.descriptors, name ∈ layout.described index := by
  simp only [AttributeBody.descriptors, AttributeBody.parts, List.mem_flatMap, List.mem_flatten]
  cases body with
  | signature _ | data _ =>
      simp [bodyNames, AttributeBody.signatures, AttributeBody.annotationTables]
  | annotations _ | parameterAnnotations _ =>
      simp only [bodyNames, AttributeBody.signatures, AttributeBody.annotationTables, tableNames,
        partNames, List.mem_flatMap]
      grind

theorem mem_names {name : String} :
    name ∈ layout.names ↔
      (∃ constant ∈ layout.constants, name ∈ layout.constantNames constant) ∨
      (∃ member ∈ layout.members, name ∈ layout.described member.descriptor) ∨
      ∃ entry ∈ layout.allAttributes, name ∈ layout.bodyNames entry.body := by
  simp only [names, memberNames, attributeTableNames, members, allAttributes, List.mem_append,
    List.mem_flatMap]
  grind

theorem mem_names_iff {name : String} :
    name ∈ layout.names ↔
      (∃ index ∈ layout.classNames, name ∈ layout.namesOfClass index) ∨
      (∃ index ∈ layout.descriptors, name ∈ layout.described index) ∨
      ∃ index ∈ layout.signatures, name ∈ layout.signed index := by
  simp only [mem_names, mem_constantNames, mem_bodyNames]
  constructor
  · rintro (⟨constant, constantMem, ⟨index, used, holds⟩ | ⟨index, used, holds⟩⟩ |
      ⟨member, memberMem, holds⟩ |
      ⟨entry, entryMem, ⟨index, used, holds⟩ | ⟨index, used, holds⟩⟩)
    · exact .inl ⟨index, mem_classNames.mpr ⟨constant, constantMem, used⟩, holds⟩
    · exact .inr (.inl ⟨index, mem_descriptors.mpr (.inl ⟨constant, constantMem, used⟩), holds⟩)
    · exact .inr (.inl ⟨_, mem_descriptors.mpr (.inr (.inl ⟨member, memberMem, rfl⟩)), holds⟩)
    · exact .inr (.inr ⟨index, mem_signatures.mpr ⟨entry, entryMem, used⟩, holds⟩)
    · exact .inr (.inl ⟨index, mem_descriptors.mpr (.inr (.inr ⟨entry, entryMem, used⟩)), holds⟩)
  · rintro (⟨index, used, holds⟩ | ⟨index, used, holds⟩ | ⟨index, used, holds⟩)
    · rcases mem_classNames.mp used with ⟨constant, constantMem, used⟩
      exact .inl ⟨constant, constantMem, .inl ⟨index, used, holds⟩⟩
    · rcases mem_descriptors.mp used with
        ⟨constant, constantMem, used⟩ | ⟨member, memberMem, rfl⟩ | ⟨entry, entryMem, used⟩
      · exact .inl ⟨constant, constantMem, .inr ⟨index, used, holds⟩⟩
      · exact .inr (.inl ⟨member, memberMem, holds⟩)
      · exact .inr (.inr ⟨entry, entryMem, .inr ⟨index, used, holds⟩⟩)
    · rcases mem_signatures.mp used with ⟨entry, entryMem, used⟩
      exact .inr (.inr ⟨entry, entryMem, .inl ⟨index, used, holds⟩⟩)

theorem mem_names_iff_refersTo {name : String} : name ∈ layout.names ↔ layout.RefersTo name := by
  simp only [mem_names_iff, namesOfClass, described, signed, List.mem_flatMap, Option.mem_toList]
  constructor
  · rintro (⟨index, used, text, named, holds⟩ | ⟨index, used, text, named, holds⟩ |
      ⟨index, used, text, named, holds⟩)
    · split at holds
      · next array =>
          rcases mem_descriptorNames.mp holds with ⟨internal, typed, rfl⟩
          exact .arrayClass used named array typed
      · next plain =>
          rw [List.mem_singleton.mp holds]
          exact .classEntry used named plain
    · rcases mem_descriptorNames.mp holds with ⟨internal, typed, rfl⟩
      exact .descriptor used named typed
    · exact .signature used named holds
  · intro refers
    cases refers with
    | classEntry used named plain => exact .inl ⟨_, used, _, named, by simp [plain]⟩
    | arrayClass used named array holds =>
        refine .inl ⟨_, used, _, named, ?_⟩
        rw [if_pos array]
        exact mem_descriptorNames.mpr ⟨_, holds, rfl⟩
    | descriptor used named holds =>
        exact .inr (.inl ⟨_, used, _, named, mem_descriptorNames.mpr ⟨_, holds, rfl⟩⟩)
    | signature used named holds => exact .inr (.inr ⟨_, used, _, named, holds⟩)

instance (layout : Layout) : DecidablePred layout.RefersTo :=
  fun _ => decidable_of_iff _ mem_names_iff_refersTo

/-- The text at an index is that of a signature of the grammar, with bounded type parameters. -/
structure HoldsSignature (layout : Layout) (index : UInt16) (signature : Signature) : Prop where
  text_eq : layout.text? index = some (String.ofList signature.text)
  bounded : ∀ parameter ∈ signature.parameters, parameter.Bounded

theorem HoldsSignature.mem_signed_iff {index : UInt16} {signature : Signature} {name : String}
    (holds : layout.HoldsSignature index signature) :
    name ∈ layout.signed index ↔ ∃ type ∈ signature.classTypes, name ∈ type.names := by
  simp [signed, holds.text_eq, mem_signatureNames_iff holds.bounded]

/-- If all signatures are those of the grammar, then what a class file refers to through them are
the class types that occur in them. -/
theorem refersTo_iff_of_grammatical {name : String}
    (grammatical : ∀ index ∈ layout.signatures,
      ∃ signature, layout.HoldsSignature index signature) :
    layout.RefersTo name ↔
      (∃ index ∈ layout.classNames, name ∈ layout.namesOfClass index) ∨
      (∃ index ∈ layout.descriptors, name ∈ layout.described index) ∨
      ∃ index ∈ layout.signatures, ∃ signature, layout.HoldsSignature index signature ∧
        ∃ type ∈ signature.classTypes, name ∈ type.names := by
  rw [← mem_names_iff_refersTo, mem_names_iff]
  refine or_congr_right (or_congr_right ?_)
  constructor
  · rintro ⟨index, used, named⟩
    rcases grammatical index used with ⟨signature, holds⟩
    exact ⟨index, used, signature, holds, holds.mem_signed_iff.mp named⟩
  · rintro ⟨index, used, signature, holds, occurs⟩
    exact ⟨index, used, holds.mem_signed_iff.mpr occurs⟩

theorem marksModule_iff (access : UInt16) :
    marksModule access.toNat ↔ access &&& 0x8000 ≠ 0 := by
  have masked : (access &&& 0x8000).toNat = (access.toNat.testBit 15).toNat * 2 ^ 15 := by
    rw [UInt16.toNat_and]
    exact Nat.and_two_pow access.toNat 15
  rw [marksModule, Ne, ← UInt16.toNat_inj, masked]
  cases access.toNat.testBit 15 <;> decide

theorem mem_erase_ofList {names : List String} {own name : String} :
    name ∈ (NameSet.ofList names).erase own ↔ name ≠ own ∧ name ∈ names := by
  rw [Std.ExtTreeSet.mem_erase, NameSet.ofList, Std.ExtTreeSet.mem_ofList, List.contains_iff_mem]
  simp [eq_comm (a := own)]

/-- Reading the bytes of a well-formed class file, whatever follows them, gives the name of the
class and exactly the other classes that the file refers to. -/
theorem reading_undoes_layout (layout : Layout) (wellFormed : layout.WellFormed)
    (extra : List UInt8) :
    ∃ internal file, layout.className? layout.thisClass = some internal ∧
      parse (layout.encode ++ extra) = .ok file ∧
      file.name = qualified internal.toList ∧
      (file.isModule ↔ layout.access &&& 0x8000 ≠ 0) ∧
      ∀ name, name ∈ file.dependencies ↔ name ≠ file.name ∧ layout.RefersTo name := by
  rcases Option.isSome_iff_exists.mp wellFormed.thisClass_named with ⟨internal, this⟩
  have read := (wellFormed.reads_file this).run extra
  refine ⟨internal, _, this, by rw [parse, read], rfl, marksModule_iff layout.access, ?_⟩
  intro name
  rw [mem_erase_ofList, mem_names_iff_refersTo]

/-- A class with an array of another class, a generic field and an annotation that holds one. -/
def annotatedClass : Layout where
  minor := 0
  major := 52
  constants := [.utf8 "a/Main", .classRef 1, .long 7, .utf8 "[Lb/Item;", .classRef 5,
    .utf8 "(Lb/Argument;)V", .nameAndType 1 7, .utf8 "Signature", .utf8 "Lb/Box<Lb/Item;>;",
    .utf8 "RuntimeVisibleAnnotations", .utf8 "Lb/Tag;", .utf8 "Code"]
  access := 0x21
  thisClass := 2
  superClass := 0
  interfaces := [6]
  fields := [⟨0, 1, 5, [⟨9, .signature 10⟩]⟩]
  methods := [⟨0, 1, 7, [⟨13, .data [0xFF]⟩]⟩]
  attributes := [⟨11, .annotations
    [.mk 12 [.mk 1 (.array [.nested (.mk 12 []), .constant 'I'.toUInt8 3])]]⟩]

theorem annotatedClass_wellFormed : annotatedClass.WellFormed where
  slots_lt := by decide
  texts_lt := by decide +kernel
  interfaces_lt := by decide
  fields_lt := by decide
  methods_lt := by decide
  attributes_lt := by decide
  memberAttributes_lt := by decide
  bodies_lt := by decide +kernel
  tables_lt := by decide +kernel
  parts_fit := by decide +kernel
  thisClass_named := by decide +kernel
  classes_named := List.all_eq_true.mp (by decide +kernel)
  descriptors_named := List.all_eq_true.mp (by decide +kernel)
  signatures_named := List.all_eq_true.mp (by decide +kernel)
  attributes_named := by decide +kernel

/-- The signature of the field: a generic class of another package with a type argument. -/
def boxOfItems : Signature :=
  let b : Identifier := ⟨['b'], by simp [reserved]⟩
  let Box : Identifier := ⟨['B', 'o', 'x'], by simp [reserved]⟩
  let Item : Identifier := ⟨['I', 't', 'e', 'm'], by simp [reserved]⟩
  let item : ReferenceType := .classType (.mk [b] (.mk Item []) [])
  .ofField (.classType (.mk [b] (.mk Box [.bounded none item]) []))

theorem annotatedClass_holdsSignature : annotatedClass.HoldsSignature 10 boxOfItems where
  text_eq := by decide +kernel
  bounded := by simp [boxOfItems, Signature.parameters]

theorem reading_annotatedClass :
    annotatedClass.WellFormed ∧
    ∃ file, parse (annotatedClass.encode ++ [0]) = .ok file ∧ file.name = "a.Main" ∧
      ∀ name ∈ ["b.Tag", "b.Box", "b.Item"], name ∈ file.dependencies := by
  refine ⟨annotatedClass_wellFormed, ?_⟩
  rcases reading_undoes_layout annotatedClass annotatedClass_wellFormed [0] with
    ⟨internal, file, this, parsed, named, _, dependencies⟩
  have internal_eq : internal = "a/Main" := by
    have : some internal = some "a/Main" := this.symm.trans (by decide +kernel)
    exact Option.some.inj this
  have name_eq : file.name = "a.Main" := by
    rw [named, internal_eq]
    decide +kernel
  have only : annotatedClass.signatures = [10] := by decide
  have grammatical : ∀ index ∈ annotatedClass.signatures,
      ∃ signature, annotatedClass.HoldsSignature index signature := by
    intro index used
    rw [only, List.mem_singleton] at used
    exact ⟨boxOfItems, used ▸ annotatedClass_holdsSignature⟩
  have refersTag : annotatedClass.RefersTo "b.Tag" := by decide +kernel
  -- Nothing but the signature names the generic class.
  have refersSigned : ∀ name ∈ ["b.Box", "b.Item"], annotatedClass.RefersTo name := by
    intro name nameMem
    rw [refersTo_iff_of_grammatical grammatical]
    refine .inr (.inr ⟨10, by decide, boxOfItems, annotatedClass_holdsSignature, ?_⟩)
    revert name
    decide
  refine ⟨file, parsed, name_eq, ?_⟩
  intro name nameMem
  rw [dependencies, name_eq]
  simp only [List.mem_cons, List.not_mem_nil, or_false] at nameMem
  rcases nameMem with rfl | rfl | rfl
  · exact ⟨by decide, refersTag⟩
  · exact ⟨by decide, refersSigned _ (by decide)⟩
  · exact ⟨by decide, refersSigned _ (by decide)⟩

end Coupling.ClassFile.Layout
