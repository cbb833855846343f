import Coupling.ClassFile.Basic
import Coupling.Proofs.ClassFile.Reads
import Mathlib.Control.Monad.Basic

/-!
# Truncated class files

A reader is frugal if it needs every byte that it uses up: wherever it succeeds,
it fails on each shorter beginning of these bytes, because the data ends, and it
does not look at what follows them. Readers that are put together from frugal
ones are frugal, because a part that succeeds has all its bytes.

Two things could break this. A reference that is followed before its bytes are
known to be there would fail for another reason; but references lead into the
constant pool, which is complete by then. And the body of an attribute is read
from data of its own, where the end of the data is not the end of the file; but
it is only read once all its bytes are there.
-/

namespace Coupling.ClassFile

variable {α β : Type}

/-- The reader uses up the bytes and gives the value. If only some of them are there, it fails
because the data ends, at an offset that lies within these. -/
structure Needs (reader : Reader α) (bytes : List UInt8) (value : α) : Prop where
  reads : Reads reader bytes value
  truncated : ∀ count < bytes.length, ∀ offset, ∃ reached ≤ count,
    (reader ⟨bytes.take count, offset⟩).1 = .error (.truncated (offset + reached))

/-- Wherever the reader succeeds, it needs the bytes that it uses up. -/
def Reader.Frugal (reader : Reader α) : Prop :=
  ∀ cursor value after, reader cursor = (.ok value, after) →
    ∃ bytes, cursor.rest = bytes ++ after.rest ∧ Needs reader bytes value

theorem Reader.fst_bind_of_error {reader : Reader α} {next : α → Reader β} {cursor : Cursor}
    {fault : Fault} (failed : (reader cursor).1 = .error fault) :
    ((reader >>= next) cursor).1 = .error fault := by
  rw [Reader.run_bind]
  match ran : reader cursor with
  | (.ok value, after) =>
      rw [ran] at failed
      cases failed
  | (.error other, after) =>
      rw [ran] at failed
      cases failed
      rfl

namespace Needs

variable {reader : Reader α} {bytes more : List UInt8} {value : α}

/-- A reader that uses up nothing needs nothing. -/
theorem of_reads_nil (read : Reads reader [] value) : Needs reader [] value where
  reads := read
  truncated := by
    intro count short
    exact absurd short (Nat.not_lt_zero count)

theorem bind {next : α → Reader β} {result : β} (first : Needs reader bytes value)
    (second : Needs (next value) more result) : Needs (reader >>= next) (bytes ++ more) result where
  reads := first.reads.bind second.reads
  truncated := by
    intro count short offset
    by_cases inFirst : count < bytes.length
    · rcases first.truncated count inFirst offset with ⟨reached, reached_le, failed⟩
      rw [List.take_append_of_le_length (Nat.le_of_lt inFirst)]
      exact ⟨reached, reached_le, Reader.fst_bind_of_error failed⟩
    · rw [List.length_append] at short
      rcases second.truncated (count - bytes.length) (by omega) (offset + bytes.length) with
        ⟨reached, reached_le, failed⟩
      have taken : (bytes ++ more).take count = bytes ++ more.take (count - bytes.length) := by
        rw [List.take_append, List.take_of_length_le (Nat.le_of_not_lt inFirst)]
      refine ⟨bytes.length + reached, by omega, ?_⟩
      rw [taken, first.reads.continue_with, failed, Nat.add_assoc]

end Needs

namespace Reader.Frugal

variable {reader : Reader α}

protected theorem pure (value : α) : (pure value : Reader α).Frugal := by
  intro cursor found after read
  cases read
  exact ⟨[], rfl, .of_reads_nil (.pure value)⟩

theorem fail (fault : Fault) : (throw fault : Reader α).Frugal := by
  intro cursor value after read
  cases read

theorem lift (given : Except Fault α) : (liftM given : Reader α).Frugal := by
  cases given with
  | ok value => exact .pure value
  | error fault => exact fail fault

theorem bind {next : α → Reader β} (first : reader.Frugal) (second : ∀ value, (next value).Frugal) :
    (reader >>= next).Frugal := by
  intro cursor result last read
  rcases Reader.exists_of_run_bind read with ⟨value, middle, ran, readMore⟩
  rcases first cursor value middle ran with ⟨front, split, needsFront⟩
  rcases second value middle result last readMore with ⟨back, splitBack, needsBack⟩
  refine ⟨front ++ back, ?_, needsFront.bind needsBack⟩
  rw [split, splitBack, List.append_assoc]

protected theorem bytes (count : Nat) : (Reader.bytes count).Frugal := by
  intro cursor value after read
  simp only [Reader.bytes] at read
  split at read
  next full =>
    cases read
    refine ⟨cursor.rest.take count, (List.take_append_drop count cursor.rest).symm,
      .bytes full, ?_⟩
    intro fewer short offset
    refine ⟨0, Nat.zero_le fewer, ?_⟩
    rw [full] at short
    have notAll : ((cursor.rest.take count).take fewer |>.take count).length ≠ count := by
      simp only [List.length_take]
      omega
    simp only [Reader.bytes, if_neg notAll, Nat.add_zero]
  next => cases read

theorem number (width : Nat) : (Reader.number width).Frugal :=
  (Frugal.bytes width).bind fun _ => .pure _

theorem skip (count : Nat) : (Reader.skip count).Frugal :=
  (Frugal.bytes count).bind fun _ => .pure _

theorem repeated (each : reader.Frugal) (count : Nat) (found : List α) :
    (Reader.repeated reader count found).Frugal := by
  induction count generalizing found with
  | zero => exact .pure found.reverse
  | succ count ih =>
      apply each.bind
      intro value
      exact ih (value :: found)

theorem table (each : reader.Frugal) : (Reader.table reader).Frugal := by
  apply (number 2).bind
  intro count
  exact each.repeated count []

/-- Data of its own is all there, so nothing is asked of the reader that it is read by. -/
theorem within (data : List UInt8) (reader : Reader α) : (Reader.within data reader).Frugal := by
  intro cursor value after read
  match ran : reader (.start data) with
  | (outcome, last) =>
      simp only [Reader.within, ran] at read
      cases read
      exact ⟨[], rfl, .of_reads_nil (.within ran)⟩

end Reader.Frugal

open Reader (Frugal)

theorem frugal_describedNames (pool : ConstantPool) : (describedNames pool).Frugal := by
  apply (Frugal.number 2).bind
  intro index
  exact (Frugal.lift _).bind fun _ => .pure _

theorem frugal_constant (index : Nat) : (ConstantPool.constant index).Frugal := by
  have skipping (count : Nat) (entries : List Constant) :
      (Reader.skip count >>= fun _ => pure entries).Frugal :=
    (Frugal.skip count).bind fun _ => .pure entries
  apply (Frugal.number 1).bind
  intro tag
  split
  · apply (Frugal.number 2).bind
    intro length
    exact (Frugal.bytes length).bind fun _ => .pure _
  · exact (Frugal.number 2).bind fun _ => .pure _
  · exact (Frugal.skip 2).bind fun _ => (Frugal.number 2).bind fun _ => .pure _
  · exact (Frugal.number 2).bind fun _ => .pure _
  -- All other constants are skipped, and an unknown one is refused.
  any_goals exact skipping _ _
  exact .fail _

theorem frugal_constants (count fuel : Nat) (pool : ConstantPool) :
    (ConstantPool.constants count fuel pool).Frugal := by
  induction fuel generalizing pool with
  | zero => exact .pure pool
  | succ fuel ih =>
      simp only [ConstantPool.constants]
      split
      · apply (frugal_constant pool.size).bind
        intro entries
        exact ih (pool ++ entries)
      · exact .pure pool

theorem frugal_pool : ConstantPool.read.Frugal := by
  apply (Frugal.number 2).bind
  intro count
  exact frugal_constants count count _

theorem frugal_attributeNames (pool : ConstantPool) : (attributeNames pool).Frugal := by
  apply (Frugal.number 2).bind
  intro index
  apply (Frugal.lift _).bind
  intro name
  apply (Frugal.number 4).bind
  intro length
  apply (Frugal.bytes length).bind
  intro body
  exact .within body (attributeBody pool name)

theorem frugal_attributes (pool : ConstantPool) : (attributes pool).Frugal :=
  (frugal_attributeNames pool).table.bind fun _ => .pure _

theorem frugal_member (pool : ConstantPool) : (member pool).Frugal := by
  apply (Frugal.skip 2).bind
  intro _
  apply (Frugal.skip 2).bind
  intro _
  apply (frugal_describedNames pool).bind
  intro described
  exact (frugal_attributes pool).bind fun _ => .pure _

theorem frugal_reader : reader.Frugal := by
  apply (Frugal.number 4).bind
  intro start
  split
  · intro cursor value after read
    cases read
  · refine (Frugal.skip 2).bind fun _ => (Frugal.skip 2).bind fun _ => ?_
    apply frugal_pool.bind
    intro pool
    apply (Frugal.number 2).bind
    intro access
    apply (Frugal.number 2).bind
    intro thisClass
    -- What the pool refers to is looked up in the pool alone.
    refine (Frugal.lift _).bind fun internal => (Frugal.lift _).bind fun pooled => ?_
    apply (Frugal.skip 2).bind
    intro _
    apply (Frugal.number 2).bind
    intro interfaces
    apply (Frugal.skip (2 * interfaces)).bind
    intro _
    apply (frugal_member pool).table.bind
    intro fields
    apply (frugal_member pool).table.bind
    intro methods
    exact (frugal_attributes pool).bind fun _ => .pure _

/-- Data that is read as a class file has a shortest beginning that is. Every longer beginning and
every continuation of the data are read as the same class file, and every shorter beginning fails
because the data ends, at an offset within it. -/
theorem truncation_always_detected {data : List UInt8} {file : ClassFile}
    (accepted : parse data = .ok file) :
    ∃ needed ≤ data.length,
      (∀ count, needed ≤ count → parse (data.take count) = .ok file) ∧
      (∀ count < needed, ∃ offset ≤ count,
        parse (data.take count) = .error (.truncated offset)) ∧
      ∀ extra, parse (data ++ extra) = .ok file := by
  match ran : reader (.start data) with
  | (outcome, after) =>
      simp only [parse, ran] at accepted
      subst accepted
      rcases frugal_reader _ _ _ ran with ⟨bytes, split, needs⟩
      have continued (rest : List UInt8) : parse (bytes ++ rest) = .ok file := by
        rw [parse, needs.reads.run]
      replace split : data = bytes ++ after.rest := split
      refine ⟨bytes.length, ?_, ?_, ?_, ?_⟩
      · rw [split, List.length_append]
        exact Nat.le_add_right _ _
      · intro count enough
        rw [split, List.take_append, List.take_of_length_le enough]
        exact continued _
      · intro count short
        rcases needs.truncated count short 0 with ⟨reached, reached_le, failed⟩
        refine ⟨reached, reached_le, ?_⟩
        rw [split, List.take_append_of_le_length (Nat.le_of_lt short)]
        rwa [Nat.zero_add] at failed
      · intro extra
        rw [split, List.append_assoc]
        exact continued _

/-- A class `A` whose signature names the class `B`, with one byte too many. -/
def signedClass : List UInt8 :=
  [0xCA, 0xFE, 0xBA, 0xBE, 0, 0, 0, 52, 0, 5,
    1, 0, 1, 0x41,
    7, 0, 1,
    1, 0, 9, 0x53, 0x69, 0x67, 0x6E, 0x61, 0x74, 0x75, 0x72, 0x65,
    1, 0, 3, 0x4C, 0x42, 0x3B,
    0, 0x21, 0, 2, 0, 0, 0, 0, 0, 0, 0, 0,
    0, 1, 0, 3, 0, 0, 0, 2, 0, 4,
    0]

/-- Without its last byte the class is still read. Without the last two the body of its attribute is
not all there, which is found where this body starts. -/
theorem truncation_of_signedClass :
    parse signedClass = .ok ⟨"A", false, .ofList ["B"]⟩ ∧
    parse (signedClass.take 57) = .ok ⟨"A", false, .ofList ["B"]⟩ ∧
    parse (signedClass.take 56) = .error (.truncated 55) ∧
    ∃ needed ≤ signedClass.length,
      (∀ count, needed ≤ count →
        parse (signedClass.take count) = .ok ⟨"A", false, .ofList ["B"]⟩) ∧
      (∀ count < needed, ∃ offset ≤ count,
        parse (signedClass.take count) = .error (.truncated offset)) ∧
      ∀ extra, parse (signedClass ++ extra) = .ok ⟨"A", false, .ofList ["B"]⟩ := by
  have accepted : parse signedClass = .ok ⟨"A", false, .ofList ["B"]⟩ := by decide +kernel
  exact ⟨accepted, by decide +kernel, by decide +kernel, truncation_always_detected accepted⟩

end Coupling.ClassFile
