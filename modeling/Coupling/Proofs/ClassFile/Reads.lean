import Coupling.ClassFile.Reader
import Mathlib.Algebra.Group.Nat.Defs

/-!
# What readers make of data

A reader reads a value from some bytes if it uses up exactly these bytes,
whatever follows them and wherever they stand. Readers compose by appending
their bytes.
-/

namespace Coupling.ClassFile

variable {α β : Type}

theorem Reader.run_bind (reader : Reader α) (next : α → Reader β) (cursor : Cursor) :
    (reader >>= next) cursor =
      match reader cursor with
      | (.ok value, after) => next value after
      | (.error fault, after) => (.error fault, after) := by
  simp only [bind, ExceptT.bind, ExceptT.mk, StateT.bind]
  rcases reader cursor with ⟨_ | _, _⟩ <;> rfl

/-- Two readers in a row succeed where the first one does and the second one does after it. -/
theorem Reader.exists_of_run_bind {reader : Reader α} {next : α → Reader β} {cursor last : Cursor}
    {result : β} (read : (reader >>= next) cursor = (.ok result, last)) :
    ∃ value middle, reader cursor = (.ok value, middle) ∧
      next value middle = (.ok result, last) := by
  rw [Reader.run_bind] at read
  match ran : reader cursor with
  | (.error fault, after) =>
      rw [ran] at read
      cases read
  | (.ok value, middle) =>
      rw [ran] at read
      exact ⟨value, middle, rfl, read⟩

/-- The reader uses up the bytes and gives the value, whatever comes after them. -/
def Reads (reader : Reader α) (bytes : List UInt8) (value : α) : Prop :=
  ∀ rest offset,
    reader ⟨bytes ++ rest, offset⟩ = (.ok value, ⟨rest, offset + bytes.length⟩)

/-- A number in the given count of bytes, most significant first. -/
def numeral : Nat → Nat → List UInt8
  | 0, _ => []
  | width + 1, value => numeral width (value / 256) ++ [UInt8.ofNat (value % 256)]

@[simp]
theorem length_numeral (width value : Nat) : (numeral width value).length = width := by
  induction width generalizing value with
  | zero => rfl
  | succ width ih => simp [numeral, ih]

theorem bigEndian_numeral {width value : Nat} (fits : value < 256 ^ width) :
    Reader.bigEndian (numeral width value) = value := by
  induction width generalizing value with
  | zero =>
      have : value = 0 := by simpa using fits
      simp [this, numeral, Reader.bigEndian]
  | succ width ih =>
      have shorter : value / 256 < 256 ^ width := by
        rw [Nat.div_lt_iff_lt_mul (by decide), ← Nat.pow_succ]
        exact fits
      have := ih shorter
      simp only [Reader.bigEndian] at this
      simp [numeral, Reader.bigEndian, this]
      omega

namespace Reads

variable {reader : Reader α} {bytes more : List UInt8} {value : α}

protected theorem pure (value : α) : Reads (pure value) [] value := by
  intro rest offset
  rfl

theorem continue_with {next : α → Reader β} (read : Reads reader bytes value)
    (rest : List UInt8) (offset : Nat) :
    (reader >>= next) ⟨bytes ++ rest, offset⟩ = next value ⟨rest, offset + bytes.length⟩ := by
  rw [Reader.run_bind, read]

theorem bind {next : α → Reader β} {result : β} (first : Reads reader bytes value)
    (second : Reads (next value) more result) : Reads (reader >>= next) (bytes ++ more) result := by
  intro rest offset
  rw [List.append_assoc, first.continue_with, second, List.length_append, Nat.add_assoc]

/-- A value that is at hand is read from no bytes. -/
theorem bindOk {next : α → Reader β} {result : β} {given : Except Fault α}
    (known : given = .ok value) (second : Reads (next value) bytes result) :
    Reads (liftM given >>= next) bytes result := by
  subst known
  intro rest offset
  exact second rest offset

theorem map {result : β} {convert : α → β} (read : Reads reader bytes value)
    (converted : convert value = result) :
    Reads (reader >>= fun found => pure (convert found)) bytes result := by
  subst converted
  have both : Reads (reader >>= fun found => pure (convert found)) (bytes ++ []) _ :=
    read.bind (.pure (convert value))
  rwa [List.append_nil] at both

protected theorem bytes {content : List UInt8} {count : Nat} (length : content.length = count) :
    Reads (Reader.bytes count) content content := by
  subst length
  intro rest offset
  simp [Reader.bytes]

theorem skip {content : List UInt8} {count : Nat} (length : content.length = count) :
    Reads (Reader.skip count) content () :=
  (Reads.bytes length).map rfl

theorem number {width value : Nat} (fits : value < 256 ^ width) :
    Reads (Reader.number width) (numeral width value) value :=
  (Reads.bytes (length_numeral width value)).map (bigEndian_numeral fits)

section Tables

variable {ι : Type} {encode : ι → List UInt8} {valueOf : ι → α} {items : List ι}

theorem repeated (each : ∀ item ∈ items, Reads reader (encode item) (valueOf item))
    (found : List α) :
    Reads (Reader.repeated reader items.length found) (items.flatMap encode)
      (found.reverse ++ items.map valueOf) := by
  induction items generalizing found with
  | nil =>
      rw [List.map_nil, List.append_nil]
      exact .pure found.reverse
  | cons item rest ih =>
      rw [List.flatMap_cons]
      apply bind (each item List.mem_cons_self)
      have others := ih (fun other otherMem => each other (List.mem_cons_of_mem _ otherMem))
        (valueOf item :: found)
      rwa [List.reverse_cons, List.append_assoc] at others

theorem table (each : ∀ item ∈ items, Reads reader (encode item) (valueOf item))
    (fits : items.length < 65536) :
    Reads (Reader.table reader) (numeral 2 items.length ++ items.flatMap encode)
      (items.map valueOf) :=
  (number fits).bind (repeated each [])

end Tables

theorem within {data : List UInt8} {cursor : Cursor}
    (run : reader (.start data) = (.ok value, cursor)) :
    Reads (Reader.within data reader) [] value := by
  intro rest offset
  simp [Reader.within, run]

theorem run (read : Reads reader bytes value) (extra : List UInt8) :
    reader (.start (bytes ++ extra)) = (.ok value, ⟨extra, bytes.length⟩) := by
  have here := read extra 0
  rwa [Nat.zero_add] at here

theorem run_all (read : Reads reader bytes value) :
    reader (.start bytes) = (.ok value, ⟨[], bytes.length⟩) := by
  have here := read.run []
  rwa [List.append_nil] at here

end Reads

end Coupling.ClassFile
