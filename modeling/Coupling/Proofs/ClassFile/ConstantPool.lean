import Coupling.Proofs.ClassFile.Layout
import Coupling.Proofs.Text.Utf8

/-!
# Reading the constant pool

The pool that is read for a layout has an entry for every index, a text at an
index of the layout is the text that is found there, and the classes that the
pool names are those that its constants name.
-/

namespace Coupling.ClassFile

theorem Reads.byte (byte : UInt8) : Reads Reader.u8 [byte] byte.toNat := by
  have taken : Reads (Reader.bytes 1) [byte] [byte] := .bytes rfl
  exact taken.map (by simp [Reader.bigEndian])

theorem Reads.word (value : UInt16) : Reads Reader.u16 (word value) value.toNat :=
  .number value.toNat_lt

@[simp]
theorem length_word (value : UInt16) : (word value).length = 2 :=
  length_numeral 2 value.toNat

/-- The entry that is read for a constant, or for an index without one. -/
def entryOf : Option PoolConstant → Constant
  | none => .unusable
  | some (.utf8 text) => .utf8 text
  | some (.classRef name) => .classEntry name.toNat
  | some (.nameAndType _ descriptor) => .nameAndType descriptor.toNat
  | some (.methodType descriptor) => .methodType descriptor.toNat
  | some _ => .other

/-- A constant of which nothing is kept. -/
theorem Reads.skipping {content : List UInt8} {count : Nat} {entries : List Constant}
    (length : content.length = count) :
    Reads (Reader.skip count >>= fun _ => pure entries) content entries :=
  (Reads.skip length).map rfl

theorem reads_constant (index : Nat) (constant : PoolConstant)
    (fits : ∀ text ∈ constant.texts, (Utf8.encode text).length < 65536) :
    Reads (ConstantPool.constant index) constant.encode (constant.slots.map entryOf) := by
  cases constant with
  | utf8 text =>
      rw [PoolConstant.encode, List.append_assoc]
      refine (Reads.byte 1).bind ((Reads.number (fits text List.mem_cons_self)).bind ?_)
      exact (Reads.bytes rfl).map (by simp [Utf8.decodeLossy_encode, PoolConstant.slots, entryOf])
  | classRef name => exact (Reads.byte 7).bind ((Reads.word name).map rfl)
  | nameAndType name descriptor =>
      rw [PoolConstant.encode, List.append_assoc]
      refine (Reads.byte 12).bind ((Reads.skip (length_word name)).bind ?_)
      exact (Reads.word descriptor).map rfl
  | methodType descriptor => exact (Reads.byte 16).bind ((Reads.word descriptor).map rfl)
  | integer _ | float _ => exact (Reads.byte _).bind (.skipping (length_numeral 4 _))
  | long _ | double _ => exact (Reads.byte _).bind (.skipping (length_numeral 8 _))
  | string index | moduleRef index | packageRef index =>
      exact (Reads.byte _).bind (.skipping (length_word index))
  | methodHandle kind reference => exact (Reads.byte 15).bind (.skipping (by simp))
  | fieldRef _ _ | methodRef _ _ | interfaceMethodRef _ _ | dynamic _ _ | invokeDynamic _ _ =>
      rw [PoolConstant.encode, List.append_assoc]
      exact (Reads.byte _).bind (.skipping (by simp))

theorem length_le_length_flatMap {ι κ : Type} {expand : ι → List κ} (items : List ι)
    (nonempty : ∀ item, 0 < (expand item).length) :
    items.length ≤ (items.flatMap expand).length := by
  induction items with
  | nil => simp
  | cons item rest ih =>
      have := nonempty item
      simp only [List.length_cons, List.flatMap_cons, List.length_append]
      omega

theorem PoolConstant.length_slots_pos (constant : PoolConstant) : 0 < constant.slots.length := by
  cases constant <;> simp [slots]

/-- The pool that is read for some indices. -/
def poolOf (slots : List (Option PoolConstant)) : ConstantPool :=
  (slots.map entryOf).toArray

theorem size_poolOf (slots : List (Option PoolConstant)) : (poolOf slots).size = slots.length := by
  simp [poolOf]

theorem poolOf_append (slots more : List (Option PoolConstant)) :
    poolOf slots ++ more.map entryOf = poolOf (slots ++ more) := by
  apply Array.toList_inj.mp
  simp [poolOf]

theorem size_append_entries (pool : ConstantPool) (entries : List Constant) :
    (pool ++ entries).size = pool.size + entries.length := by
  rw [← Array.length_toList, Array.toList_appendList]
  simp

/-- Constants are read one after the other until the pool has its entries, if each of them is read
where it stands and takes an entry. -/
theorem reads_entries {ι : Type} {encode : ι → List UInt8} {entriesOf : ι → List Constant}
    {count fuel : Nat} (pool : ConstantPool) (items : List ι)
    (each : ∀ item ∈ items, ∀ index,
      Reads (ConstantPool.constant index) (encode item) (entriesOf item))
    (nonempty : ∀ item, 0 < (entriesOf item).length)
    (total : pool.size + (items.flatMap entriesOf).length = count)
    (enough : items.length ≤ fuel) :
    Reads (ConstantPool.constants count fuel pool) (items.flatMap encode)
      (pool ++ items.flatMap entriesOf) := by
  induction items generalizing pool fuel with
  | nil =>
      simp only [List.flatMap_nil, Array.appendList_nil] at total ⊢
      have full : ¬ pool.size < count := Nat.not_lt.mpr (Nat.le_of_eq total.symm)
      cases fuel <;> simpa [ConstantPool.constants, full] using Reads.pure pool
  | cons item rest ih =>
      cases fuel with
      | zero => simp at enough
      | succ fuel =>
          rw [List.flatMap_cons, List.length_append, ← Nat.add_assoc] at total
          have missing : pool.size < count := by
            have taken := nonempty item
            omega
          have appended : pool ++ (item :: rest).flatMap entriesOf =
              pool ++ entriesOf item ++ rest.flatMap entriesOf := by
            apply Array.toList_inj.mp
            simp
          rw [appended]
          simp only [ConstantPool.constants, missing, reduceIte, List.flatMap_cons]
          rw [List.forall_mem_cons] at each
          apply (each.1 pool.size).bind
          rw [← size_append_entries] at total
          exact ih _ each.2 total (Nat.le_of_succ_le_succ enough)

theorem reads_constants {count fuel : Nat} (slots : List (Option PoolConstant))
    (constants : List PoolConstant)
    (fits : ∀ constant ∈ constants, ∀ text ∈ constant.texts, (Utf8.encode text).length < 65536)
    (total : (slots ++ constants.flatMap PoolConstant.slots).length = count)
    (enough : constants.length ≤ fuel) :
    Reads (ConstantPool.constants count fuel (poolOf slots))
      (constants.flatMap PoolConstant.encode)
      (poolOf (slots ++ constants.flatMap PoolConstant.slots)) := by
  have entries : poolOf slots ++ constants.flatMap (fun constant => constant.slots.map entryOf) =
      poolOf (slots ++ constants.flatMap PoolConstant.slots) := by
    rw [← List.map_flatMap, poolOf_append]
  rw [← entries]
  apply reads_entries
  · intro constant constantMem index
    exact reads_constant index constant (fits constant constantMem)
  · intro constant
    simpa using constant.length_slots_pos
  · simpa [size_poolOf, List.length_flatMap] using total
  · exact enough

namespace Layout

variable {layout : Layout}

def pool (layout : Layout) : ConstantPool :=
  poolOf layout.slots

theorem reads_pool (wellFormed : layout.WellFormed) :
    Reads ConstantPool.read
      (numeral 2 layout.slots.length ++ layout.constants.flatMap PoolConstant.encode)
      layout.pool := by
  have enough : layout.constants.length ≤ layout.slots.length :=
    Nat.le_succ_of_le (length_le_length_flatMap _ PoolConstant.length_slots_pos)
  exact (Reads.number wellFormed.slots_lt).bind
    (reads_constants [none] layout.constants wellFormed.texts_lt rfl enough)

theorem getElem?_pool (index : Nat) :
    layout.pool[index]? = layout.slots[index]?.map entryOf := by
  simp [pool, poolOf]

theorem utf8_pool {index : UInt16} {text : String} (named : layout.text? index = some text) :
    layout.pool.utf8 index.toNat = .ok text := by
  simp only [text?] at named
  split at named
  · next slot =>
      cases named
      simp [ConstantPool.utf8, getElem?_pool, slot, entryOf]
  · cases named

theorem className_pool {index : UInt16} {name : String}
    (named : layout.className? index = some name) :
    layout.pool.className index.toNat = .ok name := by
  simp only [className?] at named
  split at named
  · next slot => simp [ConstantPool.className, getElem?_pool, slot, entryOf, utf8_pool named]
  · cases named

/-- The classes of the descriptor at an index. -/
def described (layout : Layout) (index : UInt16) : List String :=
  (layout.text? index).toList.flatMap descriptorNames

theorem described_eq {index : UInt16} {text : String} (named : layout.text? index = some text) :
    layout.described index = descriptorNames text := by
  simp [described, named]

theorem reads_described {index : UInt16} (named : (layout.text? index).isSome) :
    Reads (describedNames layout.pool) (word index) (layout.described index) := by
  rcases Option.isSome_iff_exists.mp named with ⟨text, named⟩
  rw [described_eq named, ← List.append_nil (word index)]
  exact (Reads.word index).bind (.bindOk (utf8_pool named) (.pure _))

/-- The classes that the name of a class names. -/
def namesOfClass (layout : Layout) (index : UInt16) : List String :=
  (layout.text? index).toList.flatMap fun text =>
    if text.toList.head? = some '[' then descriptorNames text else [qualified text.toList]

def constantNames (layout : Layout) : PoolConstant → List String
  | .classRef index => layout.namesOfClass index
  | constant => constant.descriptors.flatMap layout.described

def slotNames (layout : Layout) (slot : Option PoolConstant) : List String :=
  slot.toList.flatMap layout.constantNames

theorem flatMap_slotNames :
    layout.slots.flatMap layout.slotNames = layout.constants.flatMap layout.constantNames := by
  have single (constant : PoolConstant) :
      constant.slots.flatMap layout.slotNames = layout.constantNames constant := by
    cases constant <;> simp [PoolConstant.slots, slotNames]
  rw [slots, List.flatMap_cons, List.flatMap_assoc]
  simp only [single]
  rfl

theorem some_mem_slots {constant : PoolConstant} :
    some constant ∈ layout.slots ↔ constant ∈ layout.constants := by
  have single (other : PoolConstant) : some constant ∈ other.slots ↔ constant = other := by
    cases other <;> simp [PoolConstant.slots]
  simp [slots, single]

namespace WellFormed

theorem constantNames_pool (wellFormed : layout.WellFormed) {constant : PoolConstant}
    (constantMem : constant ∈ layout.constants) :
    layout.pool.constantNames (entryOf (some constant)) = .ok (layout.constantNames constant) := by
  have described {index : UInt16} (used : index ∈ constant.descriptors) :
      ∃ text, layout.pool.utf8 index.toNat = .ok text ∧
        layout.described index = descriptorNames text := by
    have named := wellFormed.descriptors_named index
      (mem_descriptors.mpr (.inl ⟨constant, constantMem, used⟩))
    rcases Option.isSome_iff_exists.mp named with ⟨text, named⟩
    exact ⟨text, utf8_pool named, described_eq named⟩
  cases constant with
  | classRef index =>
      have named := wellFormed.classes_named index
        (mem_classNames.mpr ⟨_, constantMem, List.mem_cons_self⟩)
      rcases Option.isSome_iff_exists.mp named with ⟨text, named⟩
      by_cases array : text.toList.head? = some '['
      all_goals
        simp [entryOf, ConstantPool.constantNames, constantNames, namesOfClass, utf8_pool named,
          named, array, bind, Except.bind, pure, Except.pure]
  | nameAndType name descriptor =>
      rcases described List.mem_cons_self with ⟨text, named, described⟩
      simp [entryOf, ConstantPool.constantNames, constantNames, PoolConstant.descriptors, named,
        described, bind, Except.bind, pure, Except.pure]
  | methodType descriptor =>
      rcases described List.mem_cons_self with ⟨text, named, described⟩
      simp [entryOf, ConstantPool.constantNames, constantNames, PoolConstant.descriptors, named,
        described, bind, Except.bind, pure, Except.pure]
  | _ => rfl

theorem namesOf_pool (wellFormed : layout.WellFormed) (found : List (List String))
    {slots : List (Option PoolConstant)}
    (within : ∀ constant, some constant ∈ slots → constant ∈ layout.constants) :
    layout.pool.namesOf found (slots.map entryOf) =
      .ok (found.reverse.flatten ++ slots.flatMap layout.slotNames) := by
  induction slots generalizing found with
  | nil => simp [ConstantPool.namesOf]
  | cons slot rest ih =>
      have head : layout.pool.constantNames (entryOf slot) = .ok (layout.slotNames slot) := by
        cases slot with
        | none => rfl
        | some constant =>
            have constantMem := within constant List.mem_cons_self
            simpa [slotNames] using wellFormed.constantNames_pool constantMem
      have tail := ih (layout.slotNames slot :: found)
        fun constant constantMem => within constant (List.mem_cons_of_mem _ constantMem)
      simp [ConstantPool.namesOf, head, tail, bind, Except.bind]

theorem names_pool (wellFormed : layout.WellFormed) :
    layout.pool.names = .ok (layout.constants.flatMap layout.constantNames) := by
  have named := wellFormed.namesOf_pool [] fun constant => some_mem_slots.mp
  rwa [flatMap_slotNames] at named

end WellFormed

theorem mem_constantNames {constant : PoolConstant} {name : String} :
    name ∈ layout.constantNames constant ↔
      (∃ index ∈ constant.classNames, name ∈ layout.namesOfClass index) ∨
        ∃ index ∈ constant.descriptors, name ∈ layout.described index := by
  cases constant <;> simp [constantNames, PoolConstant.classNames, PoolConstant.descriptors]

end Layout

end Coupling.ClassFile
