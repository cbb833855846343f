import Coupling.Proofs.ClassFile.Reads
import Coupling.ClassFile.Annotation

/-!
# Annotations by recursive descent

The grammar of annotations as a recursive reader: the rule for each kind of
element reads the elements that it consists of by their own rules, at any depth.
The recursion ends because every rule reads a byte before it turns to another
element.

Reading with a stack of pending elements has the same outcome on all data. The
stack holds what the recursive reader still has to read when its calls return.
-/

namespace Coupling.ClassFile

/-- The classes that the entries of a table name. -/
def tableNames (reader : Reader (List String)) : Reader (List String) := do
  let names ← Reader.table reader
  return names.flatten

/-- Reads an element by the rule for its kind, with a reader for the elements that it consists of,
and gives the classes that it names. -/
def Element.rule (pool : ConstantPool) (inner : Element → Reader (List String)) :
    Element → Reader (List String)
  | .entry => do
    let named ← describedNames pool
    let others ← tableNames (inner .pair)
    return named ++ others
  | .pair => do
    Reader.skip 2
    inner .value
  | .value => do
    let tag ← Reader.u8
    match Char.ofNat tag with
    | 'e' =>
      let named ← describedNames pool
      Reader.skip 2
      return named
    | 'c' => describedNames pool
    | '@' => inner .entry
    | '[' => tableNames (inner .value)
    | _ =>
      Reader.skip 2
      return []

/-- Reads an element by recursive descent. The elements that it consists of start later in the data;
that they do is checked, though it never fails. -/
def Element.descend (pool : ConstantPool) (element : Element) : Reader (List String) := fun start =>
  element.rule pool
    (fun inner cursor =>
      if cursor.rest.length < start.rest.length then inner.descend pool cursor
      else (.error (.truncated cursor.offset), cursor))
    start
termination_by start => start.rest.length

/-- Reads a table of annotations by recursive descent. -/
def annotationsByDescent (pool : ConstantPool) : Reader (List String) :=
  tableNames (Element.descend pool .entry)

/-- Where the reader succeeds, it uses up at least the given number of bytes. -/
def Reader.Consumes {α : Type} (reader : Reader α) (least : Nat) : Prop :=
  ∀ cursor value after, reader cursor = (.ok value, after) →
    after.rest.length + least ≤ cursor.rest.length

namespace Reader.Consumes

variable {α β : Type} {reader : Reader α} {least more : Nat}

protected theorem pure (value : α) : (pure value : Reader α).Consumes 0 := by
  intro cursor found after read
  cases read
  exact Nat.le_refl _

theorem mono (consumes : reader.Consumes more) (fewer : least ≤ more) :
    reader.Consumes least := by
  intro cursor value after read
  exact Nat.le_trans (Nat.add_le_add_left fewer _) (consumes cursor value after read)

theorem bind {next : α → Reader β} (first : reader.Consumes least)
    (second : ∀ value, (next value).Consumes more) : (reader >>= next).Consumes (least + more) := by
  intro cursor result last read
  rcases Reader.exists_of_run_bind read with ⟨value, after, ran, readMore⟩
  have consumed := first cursor value after ran
  have consumedMore := second value after result last readMore
  omega

/-- What is read after the first bytes uses up none of them again. -/
theorem bind_left {next : α → Reader β} (first : reader.Consumes least)
    (second : ∀ value, (next value).Consumes 0) : (reader >>= next).Consumes least :=
  first.bind second

protected theorem bytes (count : Nat) : (Reader.bytes count).Consumes count := by
  intro cursor value after read
  simp only [Reader.bytes] at read
  split at read
  next full =>
    cases read
    rw [List.length_take] at full
    rw [List.length_drop]
    omega
  next => cases read

theorem number (width : Nat) : (Reader.number width).Consumes width :=
  (Consumes.bytes width).bind_left fun _ => .pure _

theorem skip (count : Nat) : (Reader.skip count).Consumes count :=
  (Consumes.bytes count).bind_left fun _ => .pure _

theorem lift (given : Except Fault α) : (liftM given : Reader α).Consumes 0 := by
  intro cursor value after read
  cases read
  exact Nat.le_refl _

theorem described (pool : ConstantPool) : (describedNames pool).Consumes 2 :=
  (number 2).bind_left fun _ => (lift _).bind_left fun _ => .pure _

theorem repeated (each : reader.Consumes 0) (count : Nat) (found : List α) :
    (Reader.repeated reader count found).Consumes 0 := by
  induction count generalizing found with
  | zero => exact .pure _
  | succ count ih => exact each.bind_left fun _ => ih _

theorem table (each : reader.Consumes 0) : (Reader.table reader).Consumes 2 :=
  (number 2).bind_left fun count => each.repeated count []

theorem tableNames {reader : Reader (List String)} (each : reader.Consumes 0) :
    (tableNames reader).Consumes 2 :=
  each.table.bind_left fun _ => .pure _

end Reader.Consumes

/-- The readers have the same outcome wherever fewer bytes are left. -/
def Reader.SameBelow {α : Type} (bound : Nat) (reader other : Reader α) : Prop :=
  ∀ cursor, cursor.rest.length < bound → reader cursor = other cursor

namespace Reader.SameBelow

variable {α β : Type} {bound less least : Nat} {reader other : Reader α}

protected theorem refl (reader : Reader α) : SameBelow bound reader reader :=
  fun _ _ => rfl

theorem bind {next after : α → Reader β} (same : SameBelow bound reader other)
    (consumes : other.Consumes least) (enough : bound ≤ less + least)
    (continues : ∀ value, SameBelow less (next value) (after value)) :
    SameBelow bound (reader >>= next) (other >>= after) := by
  intro cursor below
  rw [Reader.run_bind, Reader.run_bind, same cursor below]
  match ran : other cursor with
  | (.error fault, last) => rfl
  | (.ok value, last) =>
      have consumed := consumes cursor value last ran
      exact continues value last (by omega)

theorem repeated (same : SameBelow bound reader other) (consumes : other.Consumes 0)
    (count : Nat) (found : List α) :
    SameBelow bound (Reader.repeated reader count found) (Reader.repeated other count found) := by
  induction count generalizing found with
  | zero => exact .refl _
  | succ count ih => exact same.bind consumes (Nat.le_refl _) fun _ => ih _

theorem table (same : SameBelow bound reader other) (consumes : other.Consumes 0) :
    SameBelow bound (Reader.table reader) (Reader.table other) :=
  bind (.refl _) (.number 2) (Nat.le_add_right _ 2) fun count => same.repeated consumes count []

theorem tableNames {reader other : Reader (List String)} (same : SameBelow bound reader other)
    (consumes : other.Consumes 0) : SameBelow bound (tableNames reader) (tableNames other) :=
  (same.table consumes).bind consumes.table (Nat.le_add_right _ 2) fun _ => .refl _

end Reader.SameBelow

namespace Element

variable {pool : ConstantPool} {inner other : Element → Reader (List String)}

open Reader.Consumes in
/-- Every rule uses up a byte, if the elements inside give none back. -/
theorem consumes_rule (each : ∀ element, (inner element).Consumes 0) (element : Element) :
    (element.rule pool inner).Consumes 1 := by
  cases element with
  | entry =>
      exact ((described pool).bind fun _ => (each .pair).tableNames.bind fun _ => .pure _).mono
        (by decide)
  | pair => exact ((skip 2).bind fun _ => each .value).mono (by decide)
  | value =>
      apply (number 1).bind_left
      intro tag
      split
      · exact ((described pool).bind fun _ => (skip 2).bind fun _ => .pure _).mono (Nat.zero_le _)
      · exact (described pool).mono (Nat.zero_le _)
      · exact each .entry
      · exact (each .value).tableNames.mono (Nat.zero_le _)
      · exact ((skip 2).bind fun _ => .pure _).mono (Nat.zero_le _)

open Reader.Consumes in
/-- The outcome of a rule depends on the elements inside only where a byte has been read. -/
theorem sameBelow_rule {bound : Nat} (each : ∀ element, (other element).Consumes 0)
    (same : ∀ element, Reader.SameBelow bound (inner element) (other element))
    (element : Element) :
    Reader.SameBelow (bound + 1) (element.rule pool inner) (element.rule pool other) := by
  cases element with
  | entry =>
      apply Reader.SameBelow.bind (.refl _) (described pool) (Nat.add_le_add_left (by decide) bound)
      intro named
      exact ((same .pair).tableNames (each .pair)).bind (each .pair).tableNames
        (Nat.le_add_right _ 2) fun _ => .refl _
  | pair =>
      exact Reader.SameBelow.bind (.refl _) (skip 2) (Nat.add_le_add_left (by decide) bound)
        fun _ => same .value
  | value =>
      apply Reader.SameBelow.bind (.refl _) (number 1) (Nat.le_refl _)
      intro tag
      split
      · exact .refl _
      · exact .refl _
      · exact same .entry
      · exact (same .value).tableNames (each .value)
      · exact .refl _

theorem consumes_descend (element : Element) : (element.descend pool).Consumes 1 := by
  intro start value last read
  induction left : start.rest.length using Nat.strongRecOn
    generalizing element start value last with
  | ind bytes ih =>
      subst left
      rw [descend] at read
      apply consumes_rule ?_ element start value last read
      intro inner cursor found after ran
      dsimp only at ran
      split at ran
      next later => exact Nat.le_of_succ_le (ih _ later inner cursor found after ran rfl)
      next => cases ran

/-- The recursive reader follows the rules. -/
theorem descend_eq_rule (element : Element) :
    element.descend pool = element.rule pool (descend pool) := by
  funext start
  rw [descend]
  apply sameBelow_rule ?_ ?_ element start (Nat.lt_succ_self _)
  · exact fun inner => (consumes_descend inner).mono (Nat.zero_le _)
  · exact fun inner cursor later => if_pos later

open Reader.Consumes in
theorem consumes_read (element : Element) : (element.read pool).Consumes 1 := by
  cases element with
  | entry =>
      exact ((described pool).bind fun _ => (number 2).bind fun _ => .pure _).mono (by decide)
  | pair => exact ((skip 2).bind fun _ => .pure _).mono (by decide)
  | value =>
      apply (number 1).bind_left
      intro tag
      split
      · exact ((described pool).bind fun _ => (skip 2).bind fun _ => .pure _).mono (Nat.zero_le _)
      · exact ((described pool).bind fun _ => .pure _).mono (Nat.zero_le _)
      · exact .pure _
      · exact ((number 2).bind fun _ => .pure _).mono (Nat.zero_le _)
      · exact ((skip 2).bind fun _ => .pure _).mono (Nat.zero_le _)

end Element

/-- Reads elements one after another by recursive descent. -/
def descendAll (pool : ConstantPool) : List Element → Reader (List String)
  | [] => return []
  | element :: elements => do
    let first ← element.descend pool
    let others ← descendAll pool elements
    return first ++ others

section Pending

variable (pool : ConstantPool)

theorem flatten_repeated (element : Element) (count : Nat) (found : List (List String)) :
    (do let parts ← Reader.repeated (element.descend pool) count found; return parts.flatten) =
      do let names ← descendAll pool (List.replicate count element)
         return found.reverse.flatten ++ names := by
  induction count generalizing found with
  | zero => simp [Reader.repeated, descendAll]
  | succ count ih =>
      simp only [Reader.repeated, bind_assoc, ih, List.replicate_succ, descendAll, pure_bind]
      simp

theorem tableNames_descend (element : Element) :
    tableNames (element.descend pool) =
      Reader.u16 >>= fun count => descendAll pool (List.replicate count element) := by
  simp only [tableNames, Reader.table, bind_assoc, flatten_repeated]
  simp

theorem descendAll_append (elements more : List Element) :
    descendAll pool (elements ++ more) = do
      let first ← descendAll pool elements
      let others ← descendAll pool more
      return first ++ others := by
  induction elements with
  | nil => simp [descendAll]
  | cons element elements ih =>
      simp only [descendAll, List.cons_append, ih, bind_assoc, pure_bind, List.append_assoc]

/-- An element is read as its first part and then the elements that it consists of. -/
theorem Element.descend_eq_read (element : Element) :
    element.descend pool = do
      let (named, inner) ← element.read pool
      let others ← descendAll pool inner
      return named ++ others := by
  rw [Element.descend_eq_rule]
  cases element with
  | entry => simp [Element.rule, Element.read, tableNames_descend]
  | pair => simp [Element.rule, Element.read, descendAll]
  | value =>
      rw [Element.rule, Element.read, bind_assoc]
      congr
      funext tag
      generalize Char.ofNat tag = letter
      split <;> simp [descendAll, tableNames_descend]

/-- What the first element consists of is pending before the elements after it. -/
theorem descendAll_cons_eq_read (element : Element) (pending : List Element) :
    descendAll pool (element :: pending) = do
      let (named, inner) ← element.read pool
      let names ← descendAll pool (inner ++ pending)
      return named ++ names := by
  simp only [descendAll, Element.descend_eq_read, descendAll_append, bind_assoc, pure_bind,
    List.append_assoc]

/-- With fuel for every byte left, draining the stack reads the pending elements one after
another. -/
theorem descendAll_eq_drain {fuel : Nat} (pending : List Element) (found : List (List String))
    {cursor : Cursor} (enough : cursor.rest.length < fuel) :
    (do let names ← descendAll pool pending; return found.reverse.flatten ++ names : Reader _)
      cursor = drain pool fuel pending found cursor := by
  induction fuel generalizing pending found cursor with
  | zero => exact absurd enough (Nat.not_lt_zero _)
  | succ fuel ih =>
      cases pending with
      | nil => rw [descendAll, pure_bind, List.append_nil, drain]
      | cons element pending =>
          rw [descendAll_cons_eq_read, bind_assoc, drain, Reader.run_bind, Reader.run_bind]
          match read : element.read pool cursor with
          | (.error fault, after) => rfl
          | (.ok (names, inner), after) =>
              have consumed := element.consumes_read cursor _ after read
              have left : after.rest.length < fuel := by omega
              simpa using ih (inner ++ pending) (names :: found) left

/-- Reading annotations with a stack has on all data the outcome of the recursive reader, which
follows the rules of the grammar: the same names or the same fault, and the same place in the
data. -/
theorem annotations_agree_with_descent :
    (∀ element : Element, element.descend pool = element.rule pool (Element.descend pool)) ∧
      ∀ cursor, annotations pool cursor = annotationsByDescent pool cursor := by
  refine ⟨Element.descend_eq_rule, ?_⟩
  intro cursor
  rw [annotationsByDescent, tableNames_descend, annotations, Reader.run_bind, Reader.run_bind]
  match Reader.u16 cursor with
  | (.error fault, after) => rfl
  | (.ok count, after) =>
      have drained := descendAll_eq_drain pool (List.replicate count .entry) []
        (Nat.lt_succ_self after.rest.length)
      simp only [List.reverse_nil, List.flatten_nil, List.nil_append, bind_pure] at drained
      exact drained.symm

end Pending

end Coupling.ClassFile
