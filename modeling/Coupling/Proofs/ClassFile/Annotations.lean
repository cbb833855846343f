import Coupling.Proofs.ClassFile.ConstantPool

/-!
# Reading annotations

Draining the stack of pending elements reads an annotation from its parts, one
part a step, and leaves what was pending after it.
-/

namespace Coupling.ClassFile

namespace AnnotationPart

/-- What kind of element starts with the part. -/
def element : AnnotationPart → Element
  | entry _ _ => .entry
  | pair _ => .pair
  | _ => .value

/-- The elements that belong to the one that starts with the part. -/
def inner : AnnotationPart → List Element
  | entry _ pairs => List.replicate pairs .pair
  | pair _ => [.value]
  | nested => [.entry]
  | array values => List.replicate values .value
  | _ => []

theorem length_encode_pos (part : AnnotationPart) : 0 < part.encode.length := by
  cases part <;> simp [encode]

end AnnotationPart

theorem eq_toUInt8_of_ofNat {tag : UInt8} {c : Char} (same : Char.ofNat tag.toNat = c) :
    tag = c.toUInt8 := by
  have valid : tag.toNat.isValidChar := .inl (Nat.lt_trans tag.toNat_lt (by decide))
  have value : c.val.toNat = tag.toNat := by
    rw [← same, Char.ofNat, dif_pos valid]
    rfl
  apply UInt8.toNat_inj.mp
  rw [Char.toUInt8, UInt32.toNat_toUInt8, value, Nat.mod_eq_of_lt tag.toNat_lt]

namespace Layout

variable {layout : Layout}

/-- The classes that a part of an annotation names. -/
def partNames (layout : Layout) (part : AnnotationPart) : List String :=
  part.descriptors.flatMap layout.described

/-- The fields of a part are in range, and its descriptors are texts. -/
def PartFits (layout : Layout) (part : AnnotationPart) : Prop :=
  part.Fits ∧ ∀ index ∈ part.descriptors, (layout.text? index).isSome

theorem PartFits.reads_names {part : AnnotationPart} {type : UInt16} (fits : layout.PartFits part)
    (only : part.descriptors = [type]) :
    Reads (describedNames layout.pool) (word type) (layout.partNames part) := by
  have named := fits.2
  rw [only] at named
  rw [partNames, only, List.flatMap_singleton]
  exact reads_described (named type List.mem_cons_self)

theorem PartFits.reads {part : AnnotationPart} (fits : layout.PartFits part) :
    Reads (part.element.read layout.pool) part.encode (layout.partNames part, part.inner) := by
  cases part with
  | entry type pairs =>
      have described := fits.reads_names rfl
      exact described.bind ((Reads.number fits.1).map rfl)
  | pair name => exact (Reads.skip (length_word name)).map rfl
  | constant tag index =>
      apply (Reads.byte tag).bind
      split
      case h_5 => exact (Reads.skip (length_word index)).map rfl
      -- the tags of the other kinds of value
      all_goals
        next _ other =>
        have unlike := fits.1
        simp [AnnotationPart.Fits, eq_toUInt8_of_ofNat other] at unlike
  | enumConstant type name =>
      have described := fits.reads_names rfl
      rw [AnnotationPart.encode, List.append_assoc]
      exact (Reads.byte _).bind (described.bind ((Reads.skip (length_word name)).map rfl))
  | classLiteral type =>
      have described := fits.reads_names rfl
      exact (Reads.byte _).bind (described.map rfl)
  | nested => exact (Reads.byte '@'.toUInt8).bind (.pure _)
  | array values => exact (Reads.byte _).bind ((Reads.number fits.1).map rfl)

/-- Draining reads the pending elements from their parts, whatever is pending after them. -/
def Drains (layout : Layout) (pending : List Element) (parts : List AnnotationPart) : Prop :=
  ∀ fuel outer found rest offset,
    drain layout.pool (parts.length + fuel) (pending ++ outer) found
        ⟨parts.flatMap AnnotationPart.encode ++ rest, offset⟩ =
      drain layout.pool fuel outer ((parts.map layout.partNames).reverse ++ found)
        ⟨rest, offset + (parts.flatMap AnnotationPart.encode).length⟩

namespace Drains

theorem nil : layout.Drains [] [] := by
  intro fuel outer found rest offset
  simp

theorem append {pending more : List Element} {parts others : List AnnotationPart}
    (first : layout.Drains pending parts) (second : layout.Drains more others) :
    layout.Drains (pending ++ more) (parts ++ others) := by
  intro fuel outer found rest offset
  rw [List.length_append, Nat.add_assoc, List.append_assoc, List.flatMap_append,
    List.append_assoc, first, second]
  simp [Nat.add_assoc]

theorem step (part : AnnotationPart) {parts : List AnnotationPart} (fits : layout.PartFits part)
    (inner : layout.Drains part.inner parts) :
    layout.Drains [part.element] (part :: parts) := by
  intro fuel outer found rest offset
  rw [List.length_cons, Nat.add_right_comm, List.singleton_append, List.flatMap_cons,
    List.append_assoc, drain, fits.reads.continue_with]
  dsimp only
  rw [inner]
  simp [Nat.add_assoc]

end Drains

-- One case for each kind of element, with its own part in front of the parts of its elements.
mutual

theorem drains_entry (entry : AnnotationEntry)
    (fit : ∀ part ∈ entry.parts, layout.PartFits part) :
    layout.Drains [.entry] entry.parts := by
  cases entry with
  | mk type pairs =>
      rw [AnnotationEntry.parts, List.forall_mem_cons] at fit
      exact .step (.entry type pairs.length) fit.1 (drains_pairs pairs fit.2)

theorem drains_pair (pair : ElementPair) (fit : ∀ part ∈ pair.parts, layout.PartFits part) :
    layout.Drains [.pair] pair.parts := by
  cases pair with
  | mk name value =>
      rw [ElementPair.parts, List.forall_mem_cons] at fit
      exact .step (.pair name) fit.1 (drains_value value fit.2)

theorem drains_value (value : ElementValue) (fit : ∀ part ∈ value.parts, layout.PartFits part) :
    layout.Drains [.value] value.parts := by
  cases value with
  | constant tag index =>
      exact .step (.constant tag index) (fit _ List.mem_cons_self) .nil
  | enumConstant type name =>
      exact .step (.enumConstant type name) (fit _ List.mem_cons_self) .nil
  | classLiteral type =>
      exact .step (.classLiteral type) (fit _ List.mem_cons_self) .nil
  | nested entry =>
      rw [ElementValue.parts, List.forall_mem_cons] at fit
      exact .step .nested fit.1 (drains_entry entry fit.2)
  | array values =>
      rw [ElementValue.parts, List.forall_mem_cons] at fit
      exact .step (.array values.length) fit.1 (drains_values values fit.2)

theorem drains_pairs (pairs : List ElementPair)
    (fit : ∀ part ∈ pairParts pairs, layout.PartFits part) :
    layout.Drains (List.replicate pairs.length .pair) (pairParts pairs) := by
  cases pairs with
  | nil => exact .nil
  | cons pair rest =>
      rw [pairParts, List.forall_mem_append] at fit
      exact (drains_pair pair fit.1).append (drains_pairs rest fit.2)

theorem drains_values (values : List ElementValue)
    (fit : ∀ part ∈ valueParts values, layout.PartFits part) :
    layout.Drains (List.replicate values.length .value) (valueParts values) := by
  cases values with
  | nil => exact .nil
  | cons value rest =>
      rw [valueParts, List.forall_mem_append] at fit
      exact (drains_value value fit.1).append (drains_values rest fit.2)

end

theorem drains_table (table : List AnnotationEntry)
    (fit : ∀ part ∈ table.flatMap AnnotationEntry.parts, layout.PartFits part) :
    layout.Drains (List.replicate table.length .entry) (table.flatMap AnnotationEntry.parts) := by
  induction table with
  | nil => exact .nil
  | cons entry rest ih =>
      rw [List.flatMap_cons, List.forall_mem_append] at fit
      exact (drains_entry entry fit.1).append (ih fit.2)

def tableNames (layout : Layout) (table : List AnnotationEntry) : List String :=
  (table.flatMap AnnotationEntry.parts).flatMap layout.partNames

theorem Drains.reads {pending : List Element} {parts : List AnnotationPart} {fuel : Nat}
    (drains : layout.Drains pending parts) (enough : parts.length ≤ fuel) :
    Reads (drain layout.pool (fuel + 1) pending []) (parts.flatMap AnnotationPart.encode)
      (parts.flatMap layout.partNames) := by
  intro rest offset
  rcases Nat.exists_eq_add_of_le enough with ⟨left, rfl⟩
  have run := drains (left + 1) [] [] rest offset
  rw [List.append_nil, List.append_nil] at run
  rw [Nat.add_assoc, run, drain, List.reverse_reverse, ← List.flatMap_def]
  rfl

theorem reads_annotations {table : List AnnotationEntry} (count_lt : table.length < 65536)
    (fit : ∀ part ∈ table.flatMap AnnotationEntry.parts, layout.PartFits part) :
    Reads (annotations layout.pool) (counted AnnotationEntry.encode table)
      (layout.tableNames table) := by
  intro rest offset
  have count : Reads Reader.u16 (numeral 2 table.length) table.length := .number count_lt
  have parts_eq : table.flatMap AnnotationEntry.encode =
      (table.flatMap AnnotationEntry.parts).flatMap AnnotationPart.encode :=
    List.flatMap_assoc.symm
  have enough := length_le_length_flatMap (table.flatMap AnnotationEntry.parts)
    AnnotationPart.length_encode_pos
  rw [counted, List.append_assoc, annotations, count.continue_with, List.length_append,
    ← Nat.add_assoc, parts_eq]
  -- the fuel is what the data allows, and every part takes a byte of it
  refine (drains_table table fit).reads (Nat.le_trans enough ?_) rest _
  simp only [List.length_append]
  exact Nat.le_add_right _ _

end Layout

end Coupling.ClassFile
