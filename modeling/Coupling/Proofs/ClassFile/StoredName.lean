import Coupling.Artifact.Indexer
import Coupling.Proofs.ClassFile.ConstantPool
import Coupling.Proofs.Registry.Basic
import Coupling.Proofs.Text.ModifiedUtf8
import Mathlib.Control.Monad.Basic

/-!
# Class names as they are stored

The name of a class reaches the registry through the constant pool, where it is
stored in modified UTF-8 and from where it is read as UTF-8. The start of a class
file is enough to tell the name: the constants, of which any text may be any
bytes, and the index of the class that the file declares.

A name of characters that both forms of UTF-8 store alike is read as it is. Of
any other character nothing is left but replacement characters, so classes whose
names differ only there are taken for one.
-/

namespace Coupling.ClassFile

/-- A constant of the pool as it is stored, where a text is any bytes. -/
inductive StoredConstant where
  | text (bytes : List UInt8)
  | other (constant : PoolConstant)
deriving DecidableEq

namespace StoredConstant

def encode : StoredConstant → List UInt8
  | text bytes => [1] ++ numeral 2 bytes.length ++ bytes
  | other constant => constant.encode

/-- The indices that a constant takes. -/
def slots : StoredConstant → List (Option StoredConstant)
  | text bytes => [some (text bytes)]
  | other constant => constant.slots.map (Option.map other)

/-- The length of a text fits its field. -/
def Fits : StoredConstant → Prop
  | text bytes => bytes.length < 65536
  | other constant => ∀ text ∈ constant.texts, (Utf8.encode text).length < 65536

instance : DecidablePred Fits
  | text _ => Nat.decLt _ _
  | other constant =>
      inferInstanceAs (Decidable (∀ text ∈ constant.texts, (Utf8.encode text).length < 65536))

end StoredConstant

/-- The start of a class file, up to the index of the class that it declares. -/
structure Header where
  minor : UInt16
  major : UInt16
  constants : List StoredConstant
  access : UInt16
  thisClass : UInt16

namespace Header

/-- The constants by index. There is none at index zero. -/
def slots (header : Header) : List (Option StoredConstant) :=
  none :: header.constants.flatMap StoredConstant.slots

def encode (header : Header) : List UInt8 :=
  numeral 4 0xCAFEBABE ++ word header.minor ++ word header.major ++
    numeral 2 header.slots.length ++ header.constants.flatMap StoredConstant.encode ++
    word header.access ++ word header.thisClass

/-- Counts and lengths fit their fields. -/
def Fits (header : Header) : Prop :=
  header.slots.length < 65536 ∧ ∀ constant ∈ header.constants, constant.Fits

instance : DecidablePred Fits :=
  fun header => inferInstanceAs (Decidable (header.slots.length < 65536 ∧ _))

/-- The bytes at an index, if a text is there. -/
def bytes? (header : Header) (index : UInt16) : Option (List UInt8) :=
  match header.slots[index.toNat]? with
  | some (some (.text bytes)) => some bytes
  | _ => none

/-- The bytes that the name of the declared class is stored as. -/
def name? (header : Header) : Option (List UInt8) :=
  match header.slots[header.thisClass.toNat]? with
  | some (some (.other (.classRef index))) => header.bytes? index
  | _ => none

end Header

/-- The data starts as a class file does that declares a class of the given name in internal form,
stored in modified UTF-8. -/
def Declares (data : List UInt8) (name : String) : Prop :=
  ∃ header : Header, header.Fits ∧ header.name? = some (ModifiedUtf8.encode name) ∧
    header.encode <+: data

/-- The entry that is read for a stored constant, or for an index without one. -/
def storedEntry : Option StoredConstant → Constant
  | some (.text bytes) => .utf8 (Utf8.decodeLossy bytes)
  | some (.other constant) => entryOf (some constant)
  | none => entryOf none

theorem reads_stored (index : Nat) {constant : StoredConstant} (fits : constant.Fits) :
    Reads (ConstantPool.constant index) constant.encode (constant.slots.map storedEntry) := by
  cases constant with
  | text bytes =>
      rw [StoredConstant.encode, List.append_assoc]
      exact (Reads.byte 1).bind ((Reads.number fits).bind ((Reads.bytes rfl).map rfl))
  | other constant =>
      have entries : ∀ slot : Option PoolConstant, storedEntry (slot.map .other) = entryOf slot := by
        intro slot
        cases slot <;> rfl
      have read := reads_constant index constant fits
      simpa only [StoredConstant.encode, StoredConstant.slots, List.map_map, Function.comp_def,
        entries] using read

theorem StoredConstant.length_slots_pos (constant : StoredConstant) :
    0 < constant.slots.length := by
  cases constant with
  | text bytes => exact Nat.zero_lt_one
  | other constant => simpa [slots] using constant.length_slots_pos

theorem exists_of_parse {data : List UInt8} {file : ClassFile} (parsed : parse data = .ok file) :
    ∃ last, reader (.start data) = (.ok file, last) := by
  match read : reader (.start data) with
  | (outcome, last) =>
      simp only [parse, read] at parsed
      exact ⟨last, by rw [parsed]⟩

namespace Header

variable {header : Header} {bytes rest : List UInt8}

def pool (header : Header) : ConstantPool :=
  (#[.unusable] : ConstantPool) ++
    header.constants.flatMap fun constant => constant.slots.map storedEntry

theorem getElem?_pool (index : Nat) : header.pool[index]? = header.slots[index]?.map storedEntry := by
  have entries : header.pool.toList = header.slots.map storedEntry := by
    simp [pool, slots, List.map_flatMap, storedEntry, entryOf]
  rw [← Array.getElem?_toList, entries, List.getElem?_map]

theorem reads_pool (fits : header.Fits) :
    Reads ConstantPool.read
      (numeral 2 header.slots.length ++ header.constants.flatMap StoredConstant.encode)
      header.pool := by
  apply (Reads.number fits.1).bind
  rw [pool]
  apply reads_entries
  · intro constant constantMem index
    exact reads_stored index (fits.2 constant constantMem)
  · intro constant
    simpa using constant.length_slots_pos
  · simp [slots, List.length_flatMap, Nat.add_comm]
  · exact Nat.le_succ_of_le (length_le_length_flatMap _ StoredConstant.length_slots_pos)

theorem className_pool (named : header.name? = some bytes) :
    header.pool.className header.thisClass.toNat = .ok (Utf8.decodeLossy bytes) := by
  rw [name?] at named
  split at named
  · next index slot =>
      rw [bytes?] at named
      split at named
      · next text =>
          cases named
          simp [ConstantPool.className, ConstantPool.utf8, getElem?_pool, slot, text, storedEntry,
            entryOf]
      · cases named
  · cases named

/-- Whatever follows the start of a class file, the name is decided by then. -/
theorem name_of_parse {file : ClassFile} (fits : header.Fits) (named : header.name? = some bytes)
    (parsed : parse (header.encode ++ rest) = .ok file) :
    file.name = qualified (Utf8.decodeLossy bytes).toList := by
  obtain ⟨last, read⟩ := exists_of_parse parsed
  have start : Reads Reader.u32 (numeral 4 0xCAFEBABE) magic := .number (by decide)
  simp only [Cursor.start, encode, List.append_assoc] at read
  rw [reader, start.continue_with] at read
  simp only [bne_self_eq_false, Bool.false_eq_true, reduceIte] at read
  rw [(Reads.skip (length_word header.minor)).continue_with,
    (Reads.skip (length_word header.major)).continue_with, ← List.append_assoc (numeral 2 _),
    (reads_pool fits).continue_with, (Reads.word header.access).continue_with,
    (Reads.word header.thisClass).continue_with, className_pool named] at read
  obtain ⟨internal, _, found, read⟩ := Reader.exists_of_run_bind read
  cases found
  -- What is still to be read decides only whether the file is read at all, and what it refers to.
  obtain ⟨pooled, _, _, read⟩ := Reader.exists_of_run_bind read
  obtain ⟨_, _, _, read⟩ := Reader.exists_of_run_bind read
  obtain ⟨interfaces, _, _, read⟩ := Reader.exists_of_run_bind read
  obtain ⟨_, _, _, read⟩ := Reader.exists_of_run_bind read
  obtain ⟨fields, _, _, read⟩ := Reader.exists_of_run_bind read
  obtain ⟨methods, _, _, read⟩ := Reader.exists_of_run_bind read
  obtain ⟨attributed, _, _, read⟩ := Reader.exists_of_run_bind read
  cases read
  rfl

end Header

section Declared

variable {data : List UInt8} {name : String} {file : ClassFile}

theorem Declares.name_eq (declares : Declares data name) (parsed : parse data = .ok file) :
    file.name = qualified (ModifiedUtf8.survivors name.toList) := by
  rcases declares with ⟨header, fits, named, rest, rfl⟩
  rw [header.name_of_parse fits named parsed, ModifiedUtf8.toList_decodeLossy_encode]

/-- The name is in internal form, without dots, and all its characters are stored as in UTF-8. -/
structure IsPlainName (name : String) : Prop where
  dotless : '.' ∉ name.toList
  plain : ∀ c ∈ name.toList, ModifiedUtf8.IsPlain c

theorem Declares.name_eq_of_plain (declares : Declares data name) (parsed : parse data = .ok file)
    (plain : ∀ c ∈ name.toList, ModifiedUtf8.IsPlain c) : file.name = qualified name.toList := by
  rw [declares.name_eq parsed, ModifiedUtf8.survivors_of_isPlain plain]

/-- Slashes in place of dots undo the qualified form of a text without dots. -/
theorem map_slash_qualified {internal : List Char} (dotless : '.' ∉ internal) :
    (qualified internal).toList.map (fun c => if c = '.' then '/' else c) = internal := by
  have undone : ∀ c ∈ internal,
      (if (if c = '/' then '.' else c) = '.' then '/' else if c = '/' then '.' else c) = c := by
    intro c mem
    have notDot : c ≠ '.' := fun isDot => dotless (isDot ▸ mem)
    by_cases slash : c = '/'
    · simp [slash]
    · simp [slash, notDot]
  rw [qualified, String.toList_ofList, List.map_map]
  exact (List.map_congr_left undone).trans (List.map_id' internal)

theorem IsPlainName.eq_of_qualified_eq {other : String} (named : IsPlainName name)
    (otherNamed : IsPlainName other) (same : qualified name.toList = qualified other.toList) :
    name = other := by
  rw [← String.toList_inj, ← map_slash_qualified named.dotless, same,
    map_slash_qualified otherNamed.dotless]

/-- A class file that can be read adds its class under its name, unless one is there already or it
declares a module. -/
theorem get?_addClassFile (registry : Registry) (path : Path) (parsed : parse data = .ok file) :
    ∃ added, Indexer.addClassFile registry path data = .ok added ∧
      ∀ name, added.get? name = (registry.get? name).or
        (if file.isModule = false ∧ file.name = name then
          some (.ofName file.name file.dependencies) else none) := by
  cases kind : file.isModule with
  | true =>
      refine ⟨registry, by simp [Indexer.addClassFile, parsed, kind], fun name => ?_⟩
      simp
  | false =>
      refine ⟨registry.insert (.ofName file.name file.dependencies),
        by simp [Indexer.addClassFile, parsed, kind], fun name => ?_⟩
      rw [Registry.get?_insert]
      by_cases same : file.name = name
      · simp [ClassInfo.ofName, same]
      · simp [ClassInfo.ofName, same]

end Declared

/-- A class is read under its name, in which nothing but replacement characters is left of the
characters that are not stored as in UTF-8. So a plain name is read as it is, and a class with a
plain name is not taken for a class with another one: it is added to a registry also after that. -/
theorem plain_class_names_survive :
    (∀ data name file, Declares data name → parse data = .ok file →
      file.name = qualified (ModifiedUtf8.survivors name.toList) ∧
      ((∀ c ∈ name.toList, ModifiedUtf8.IsPlain c) → file.name = qualified name.toList)) ∧
    ∀ first second name other file otherFile, Declares first name → Declares second other →
      parse first = .ok file → parse second = .ok otherFile →
      IsPlainName name → IsPlainName other → name ≠ other →
      file.name ≠ otherFile.name ∧
      ∀ registry path otherPath, otherFile.isModule = false →
        registry.get? otherFile.name = none →
        ∃ found, (do
            let added ← Indexer.addClassFile registry path first
            Indexer.addClassFile added otherPath second) = .ok found ∧
          found.get? otherFile.name = some (.ofName otherFile.name otherFile.dependencies) := by
  refine ⟨fun data name file declares parsed => ⟨declares.name_eq parsed,
    declares.name_eq_of_plain parsed⟩, ?_⟩
  intro first second name other file otherFile declares otherDeclares parsed otherParsed plain
    otherPlain different
  have apart : file.name ≠ otherFile.name := by
    rw [declares.name_eq_of_plain parsed plain.plain,
      otherDeclares.name_eq_of_plain otherParsed otherPlain.plain]
    exact fun same => different (plain.eq_of_qualified_eq otherPlain same)
  refine ⟨apart, ?_⟩
  intro registry path otherPath isClass free
  obtain ⟨added, adds, addedLookup⟩ := get?_addClassFile registry path parsed
  obtain ⟨found, finds, foundLookup⟩ := get?_addClassFile added otherPath otherParsed
  refine ⟨found, by simp only [adds, bind, Except.bind, finds], ?_⟩
  rw [foundLookup, addedLookup, free]
  simp [apart, isClass]

/-- A class file that declares a class of the given name and nothing else. -/
def bareClass (name : String) : List UInt8 :=
  let header : Header :=
    ⟨0, 52, [.other (.classRef 2), .text (ModifiedUtf8.encode name)], 0, 1⟩
  header.encode ++ List.replicate 10 0

theorem declares_bareClass {name : String} (fits : (ModifiedUtf8.encode name).length < 65536) :
    Declares (bareClass name) name := by
  refine ⟨_, ⟨?_, ?_⟩, rfl, List.prefix_append _ _⟩
  · change 3 < 65536
    decide
  · simpa [StoredConstant.Fits, PoolConstant.texts] using fits

/-- Two classes whose names differ in one letter, stored in three bytes. -/
theorem greek_class_names_survive :
    Declares (bareClass "a/ἀ") "a/ἀ" ∧ Declares (bareClass "a/ἁ") "a/ἁ" ∧
    parse (bareClass "a/ἀ") = .ok ⟨"a.ἀ", false, ∅⟩ ∧
    parse (bareClass "a/ἁ") = .ok ⟨"a.ἁ", false, ∅⟩ ∧
    IsPlainName "a/ἀ" ∧ IsPlainName "a/ἁ" ∧ (∅ : Registry).get? "a.ἁ" = none ∧
    "a.ἀ" = qualified "a/ἀ".toList ∧
    ∃ found, (do
        let added ← Indexer.addClassFile ∅ ⟨"A.class"⟩ (bareClass "a/ἀ")
        Indexer.addClassFile added ⟨"B.class"⟩ (bareClass "a/ἁ")) = .ok found ∧
      found.get? "a.ἁ" = some (.ofName "a.ἁ" ∅) := by
  have declares : Declares (bareClass "a/ἀ") "a/ἀ" := declares_bareClass (by decide)
  have otherDeclares : Declares (bareClass "a/ἁ") "a/ἁ" := declares_bareClass (by decide)
  have parsed : parse (bareClass "a/ἀ") = .ok ⟨"a.ἀ", false, ∅⟩ := by decide +kernel
  have otherParsed : parse (bareClass "a/ἁ") = .ok ⟨"a.ἁ", false, ∅⟩ := by decide +kernel
  have plain : IsPlainName "a/ἀ" := ⟨by decide, by simp [ModifiedUtf8.IsPlain]⟩
  have otherPlain : IsPlainName "a/ἁ" := ⟨by decide, by simp [ModifiedUtf8.IsPlain]⟩
  have free : (∅ : Registry).get? "a.ἁ" = none := Registry.get?_empty
  have both := plain_class_names_survive.2 _ _ _ _ _ _ declares otherDeclares parsed otherParsed
    plain otherPlain (by decide)
  exact ⟨declares, otherDeclares, parsed, otherParsed, plain, otherPlain, free,
    (plain_class_names_survive.1 _ _ _ declares parsed).2 plain.plain,
    both.2 ∅ ⟨"A.class"⟩ ⟨"B.class"⟩ rfl free⟩

/-- Of a letter beyond the basic plane six replacement characters are left, so two classes whose
names are such letters are read under one name, and the second of them is not added. -/
theorem supplementary_class_names_merge :
    Declares (bareClass "𝒳") "𝒳" ∧ Declares (bareClass "𝒴") "𝒴" ∧
    parse (bareClass "𝒳") = .ok ⟨"������", false, ∅⟩ ∧
    parse (bareClass "𝒴") = .ok ⟨"������", false, ∅⟩ ∧
    "������" ≠ qualified "𝒳".toList ∧
    (do
      let added ← Indexer.addClassFile ∅ ⟨"X.class"⟩ (bareClass "𝒳")
      Indexer.addClassFile added ⟨"Y.class"⟩ (bareClass "𝒴")).toOption.map Registry.size =
        some 1 := by
  exact ⟨declares_bareClass (by decide), declares_bareClass (by decide), by decide +kernel,
    by decide +kernel, by decide, by decide +kernel⟩

end Coupling.ClassFile
