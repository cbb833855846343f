import Coupling.ClassFile.Descriptor

/-!
# The class types of a descriptor

The class types of any text, well formed or not: an `L` outside of a class type
starts one, and the next semicolon ends it. The scan of a descriptor finds
exactly these.
-/

namespace Coupling.ClassFile

/-- A text holds a class type with the given internal name. -/
inductive ObjectType : List Char → List Char → Prop where
  | here {name rest : List Char} (closed : ';' ∉ name) :
      ObjectType ('L' :: (name ++ ';' :: rest)) name
  | afterType {skipped rest name : List Char} (closed : ';' ∉ skipped)
      (later : ObjectType rest name) : ObjectType ('L' :: (skipped ++ ';' :: rest)) name
  | afterLetter {c : Char} {rest name : List Char} (other : c ≠ 'L')
      (later : ObjectType rest name) : ObjectType (c :: rest) name

/-- The first semicolon of a text and what stands on both sides of it. -/
def ClosedAt (text inside after : List Char) : Prop :=
  text = inside ++ ';' :: after ∧ ';' ∉ inside

theorem not_closedAt_nil (inside after : List Char) : ¬ ClosedAt [] inside after := by
  rintro ⟨split, _⟩
  simp at split

theorem exists_closedAt_semicolon {rest : List Char} {holds : List Char → List Char → Prop} :
    (∃ inside after, ClosedAt (';' :: rest) inside after ∧ holds inside after) ↔
      holds [] rest := by
  constructor
  · rintro ⟨inside, after, ⟨split, closed⟩, held⟩
    cases inside with
    | nil =>
        simp only [List.nil_append, List.cons.injEq, true_and] at split
        rwa [split]
    | cons c inside =>
        simp only [List.cons_append, List.cons.injEq] at split
        exact absurd split.1 (List.ne_of_not_mem_cons closed)
  · intro held
    exact ⟨[], rest, ⟨rfl, List.not_mem_nil⟩, held⟩

theorem exists_closedAt_cons {c : Char} {rest : List Char}
    {holds : List Char → List Char → Prop} (other : c ≠ ';') :
    (∃ inside after, ClosedAt (c :: rest) inside after ∧ holds inside after) ↔
      ∃ inside after, ClosedAt rest inside after ∧ holds (c :: inside) after := by
  constructor
  · rintro ⟨inside, after, ⟨split, closed⟩, held⟩
    cases inside with
    | nil =>
        simp only [List.nil_append, List.cons.injEq] at split
        exact absurd split.1 other
    | cons first inside =>
        simp only [List.cons_append, List.cons.injEq] at split
        rw [← split.1] at held
        exact ⟨inside, after, ⟨split.2, fun inner => closed (.tail _ inner)⟩, held⟩
  · rintro ⟨inside, after, ⟨rfl, closed⟩, held⟩
    refine ⟨c :: inside, after, ⟨rfl, ?_⟩, held⟩
    exact List.not_mem_cons_of_ne_of_not_mem other.symm closed

namespace ObjectType

theorem not_nil (name : List Char) : ¬ ObjectType [] name := by
  intro holds
  cases holds

theorem cons_iff_of_ne {c : Char} {rest name : List Char} (other : c ≠ 'L') :
    ObjectType (c :: rest) name ↔ ObjectType rest name := by
  constructor
  · intro holds
    cases holds with
    | here closed => exact absurd rfl other
    | afterType closed later => exact absurd rfl other
    | afterLetter _ later => exact later
  · exact afterLetter other

theorem cons_iff_of_opening {rest name : List Char} :
    ObjectType ('L' :: rest) name ↔
      ∃ inside after, ClosedAt rest inside after ∧ (name = inside ∨ ObjectType after name) := by
  constructor
  · intro holds
    cases holds with
    | here closed => exact ⟨_, _, ⟨rfl, closed⟩, .inl rfl⟩
    | afterType closed later => exact ⟨_, _, ⟨rfl, closed⟩, .inr later⟩
    | afterLetter other _ => exact absurd rfl other
  · rintro ⟨inside, after, ⟨rfl, closed⟩, rfl | later⟩
    · exact here closed
    · exact afterType closed later

end ObjectType

/-- Between class types the scan finds the class types of what follows. Inside one it finds that
class type, if it ends, and those after its end. -/
theorem mem_classTypes (text : List Char) (found : List (List Char)) (name : List Char) :
    (name ∈ classTypes none found text ↔ name ∈ found ∨ ObjectType text name) ∧
    ∀ part, name ∈ classTypes (some part) found text ↔
      name ∈ found ∨ ∃ inside after, ClosedAt text inside after ∧
        (name = part.reverse ++ inside ∨ ObjectType after name) := by
  induction text generalizing found with
  | nil => simp [classTypes, ObjectType.not_nil, not_closedAt_nil]
  | cons c rest ih =>
      constructor
      · by_cases opens : c = 'L'
        · subst opens
          simp only [classTypes, reduceIte, (ih found).2 [], ObjectType.cons_iff_of_opening,
            List.reverse_nil, List.nil_append]
        · simp only [classTypes, opens, reduceIte, (ih found).1, ObjectType.cons_iff_of_ne opens]
      · intro part
        by_cases closes : c = ';'
        · subst closes
          simp only [classTypes, reduceIte, (ih (part.reverse :: found)).1,
            exists_closedAt_semicolon, List.mem_cons, List.append_nil]
          rw [or_left_comm, or_assoc]
        · simp only [classTypes, closes, reduceIte, (ih found).2 (c :: part),
            exists_closedAt_cons closes, List.reverse_cons, List.append_assoc,
            List.singleton_append]

/-- The scan of a descriptor finds exactly its class types. -/
theorem mem_descriptorNames {text name : String} :
    name ∈ descriptorNames text ↔
      ∃ internal, ObjectType text.toList internal ∧ qualified internal = name := by
  simp [descriptorNames, (mem_classTypes _ _ _).1]

end Coupling.ClassFile
