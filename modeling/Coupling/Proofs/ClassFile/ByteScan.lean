import Coupling.Proofs.ClassFile.Signature
import Coupling.Proofs.Text.Offsets

/-!
# Scans by byte offsets

The scans of descriptors and signatures go through the characters of a text. Here
they go through its bytes, keep an offset where they are, and cut the names out
between two offsets. Whatever could go wrong is checked: a byte is read only
inside the text, and a cut is made only between characters.

Nothing goes wrong, however malformed the text is, and both ways of scanning
find the same names. Between two cuts the offset may lie inside a character,
since bytes that mean nothing are passed one by one. But a scan starts and ends
its names at characters below 128 only, and these are bytes of their own.
-/

namespace Coupling.ClassFile

open Utf8

/-- What an iteration of a loop leads to. -/
inductive Iteration (State : Type) where
  /-- The loop ends. -/
  | done
  /-- The loop goes on. -/
  | next (state : State)

/-- The loop gets from the first state to the last one and ends there, and no iteration fails. -/
inductive Ends {State : Type} (iterate? : State → Option (Iteration State)) :
    State → State → Prop where
  | done {state : State} (ended : iterate? state = some .done) : Ends iterate? state state
  | next {state following last : State} (stepped : iterate? state = some (.next following))
      (later : Ends iterate? following last) : Ends iterate? state last

/-- The qualified names of the class types that a scan has found, latest first. -/
def foundNames (found : List String) : List String :=
  found.reverse.map fun name => qualified name.toList

/-- The state of a scan through the bytes of a signature. -/
structure SignatureCursor where
  /-- The offset of the next byte. -/
  position : Nat
  /-- The scan is in the leading section of type parameters. -/
  inParameters : Bool
  /-- The class type that is being read, in internal form. -/
  current : String
  /-- The class types around the open angle brackets, innermost first. -/
  enclosing : List String
  /-- The class types found, latest first. -/
  found : List String

namespace SignatureCursor

/-- The scan before the first byte. -/
def start? (text : String) : Option SignatureCursor :=
  if byteAt? text 0 = some '<' then do
    let position ← find? text 1 (· == ':')
    return ⟨position, true, "", [], []⟩
  else
    some ⟨0, false, "", [], []⟩

/-- Cuts out a class name, which comes after `outer`. -/
def takeName? (text : String) (cursor : SignatureCursor) (outer : String) :
    Option SignatureCursor := do
  let stop ← find? text (cursor.position + 1) SignatureScan.endsName
  let part ← slice? text (cursor.position + 1) stop
  return { cursor with
    position := stop
    current := outer ++ part
    found := (outer ++ part) :: cursor.found }

/-- The offset after the end of a type and the name of a type parameter that may follow. -/
def afterType? (text : String) (cursor : SignatureCursor) : Option Nat :=
  match byteAt? text (cursor.position + 1) with
  | some c =>
    if cursor.inParameters && cursor.enclosing.isEmpty && c != ':' && c != '>' then
      find? text (cursor.position + 1) (· == ':')
    else
      some (cursor.position + 1)
  | none => some (cursor.position + 1)

/-- Reads a byte, which is taken for a character, and what belongs to it. -/
def stepAt? (text : String) (cursor : SignatureCursor) : Char → Option SignatureCursor
  | 'L' => cursor.takeName? text ""
  | '.' => cursor.takeName? text (cursor.current ++ "$")
  | 'T' => do
    let position ← find? text cursor.position (· == ';')
    return { cursor with position }
  | '<' =>
    some { cursor with
      position := cursor.position + 1
      current := ""
      enclosing := cursor.current :: cursor.enclosing }
  | '>' =>
    match cursor.enclosing with
    | outer :: enclosing =>
      some { cursor with position := cursor.position + 1, current := outer, enclosing }
    | [] => some { cursor with position := cursor.position + 1, inParameters := false }
  | ';' => do
    let position ← cursor.afterType? text
    return { cursor with position }
  | _ => some { cursor with position := cursor.position + 1 }

/-- One iteration of the scan. -/
def iterate? (text : String) (cursor : SignatureCursor) : Option (Iteration SignatureCursor) :=
  if cursor.position < (encode text).length then do
    let c ← byteAt? text cursor.position
    (cursor.stepAt? text c).map .next
  else
    some .done

variable {text : String} {cursor next : SignatureCursor} {c : Char}

theorem position_lt_of_takeName? {outer : String}
    (taken : cursor.takeName? text outer = some next) : cursor.position < next.position := by
  simp only [takeName?, Option.bind_eq_bind, Option.bind_eq_some_iff, Option.pure_def,
    Option.some.injEq] at taken
  rcases taken with ⟨stop, found, part, _, rfl⟩
  exact le_of_find? found

theorem position_lt_of_afterType? {stop : Nat} (found : cursor.afterType? text = some stop) :
    cursor.position < stop := by
  unfold afterType? at found
  split at found
  · split at found
    · exact le_of_find? found
    · simp only [Option.some.injEq] at found
      omega
  · simp only [Option.some.injEq] at found
    omega

theorem position_lt_of_stepAt? (here : byteAt? text cursor.position = some c)
    (stepped : cursor.stepAt? text c = some next) : cursor.position < next.position := by
  unfold stepAt? at stepped
  split at stepped
  · exact position_lt_of_takeName? stepped
  · exact position_lt_of_takeName? stepped
  · simp only [Option.bind_eq_bind, Option.bind_eq_some_iff, Option.pure_def,
      Option.some.injEq] at stepped
    rcases stepped with ⟨stop, found, rfl⟩
    -- The search starts at the letter itself, which does not stop it.
    exact lt_of_find? here (by decide) found
  · simp only [Option.some.injEq] at stepped
    simp [← stepped]
  · split at stepped <;>
    · simp only [Option.some.injEq] at stepped
      simp [← stepped]
  · simp only [Option.bind_eq_bind, Option.bind_eq_some_iff, Option.pure_def,
      Option.some.injEq] at stepped
    rcases stepped with ⟨stop, found, rfl⟩
    exact position_lt_of_afterType? found
  · simp only [Option.some.injEq] at stepped
    simp [← stepped]

theorem iterate?_of_byteAt? (here : byteAt? text cursor.position = some c) :
    cursor.iterate? text = (cursor.stepAt? text c).map .next := by
  simp [iterate?, lt_length_of_byteAt? here, here]

/-- Every iteration that goes on gets further in the text. -/
theorem position_lt_of_iterate? (stepped : cursor.iterate? text = some (.next next)) :
    cursor.position < next.position := by
  unfold iterate? at stepped
  split at stepped
  · simp only [Option.bind_eq_bind, Option.bind_eq_some_iff, Option.map_eq_some_iff,
      Iteration.next.injEq] at stepped
    rcases stepped with ⟨c, here, _, found, rfl⟩
    exact position_lt_of_stepAt? here found
  · cases stepped

end SignatureCursor

namespace SignatureScan

variable {text : String} {position : Nat} {scan : SignatureScan} {c : Char} {rest : List Char}

/-- The scan through the bytes that is at an offset and otherwise where this scan is. -/
def cursor (scan : SignatureScan) (position : Nat) : SignatureCursor where
  position
  inParameters := scan.inParameters
  current := String.ofList scan.current
  enclosing := scan.enclosing.map String.ofList
  found := scan.found.map String.ofList

theorem foundNames_cursor (scan : SignatureScan) (position : Nat) :
    foundNames (scan.cursor position).found = scan.found.reverse.map qualified := by
  simp [foundNames, cursor, ← List.map_reverse, Function.comp_def]

theorem asciiOnly_endsName : AsciiOnly endsName := by
  intro c ends
  simp only [endsName, Bool.or_eq_true, beq_iff_eq] at ends
  rcases ends with (rfl | rfl) | rfl <;> decide

theorem fromColon?_eq (starts : Starts text position rest) :
    ∃ stop, find? text position (· == ':') = some stop ∧ Starts text stop (fromColon rest) := by
  rcases starts.find? (asciiOnly_eq (c := ':') (by decide)) with ⟨stop, found, ahead, _⟩
  exact ⟨stop, found, ahead⟩

theorem takeName?_eq (scan : SignatureScan) (starts : Starts text (position + 1) rest)
    (outer : List Char) :
    ∃ stop, (scan.cursor position).takeName? text (String.ofList outer) =
        some ((scan.takeName outer rest).cursor stop) ∧
      Starts text stop (scan.takeName outer rest).rest := by
  rcases starts.find? asciiOnly_endsName with ⟨stop, found, ahead, cut⟩
  refine ⟨stop, ?_, ahead⟩
  simp [SignatureCursor.takeName?, cursor, found, cut, takeName]

theorem afterType?_eq (scan : SignatureScan) (starts : Starts text (position + 1) rest) :
    ∃ stop, (scan.cursor position).afterType? text = some stop ∧
      Starts text stop (scan.afterType rest) := by
  cases rest with
  | nil =>
      have none : byteAt? text (position + 1) = none := by
        simp [byteAt?, starts.length_encode]
      exact ⟨position + 1, by simp [SignatureCursor.afterType?, cursor, none], starts⟩
  | cons c rest =>
      rcases starts.exists_byteAt? with ⟨byte, byteMem, here⟩
      have colon := (asciiOnly_eq (c := ':') (by decide)).stops_byte byteMem
      have bracket := (asciiOnly_eq (c := '>') (by decide)).stops_byte byteMem
      rcases fromColon?_eq starts with ⟨stop, found, ahead⟩
      by_cases named :
          (scan.inParameters && scan.enclosing.isEmpty && c != ':' && c != '>') = true
      · refine ⟨stop, ?_, ?_⟩
        · simp_all [SignatureCursor.afterType?, cursor, bne]
        · simpa only [afterType, if_pos named] using ahead
      · refine ⟨position + 1, ?_, ?_⟩
        · simp_all [SignatureCursor.afterType?, cursor, bne]
        · simpa only [afterType, if_neg named] using starts

/-- The characters that the scan does not pass over. -/
def marks : List Char := ['L', '.', 'T', '<', '>', ';']

theorem toNat_lt_of_mem_marks (isMark : c ∈ marks) : c.toNat < 128 := by
  simp only [marks, List.mem_cons, List.not_mem_nil, or_false] at isMark
  rcases isMark with rfl | rfl | rfl | rfl | rfl | rfl <;> decide

theorem stepAt?_of_plain (plain : c ∉ marks) (cursor : SignatureCursor) :
    cursor.stepAt? text c = some { cursor with position := cursor.position + 1 } := by
  simp only [marks, List.mem_cons, List.not_mem_nil, or_false, not_or] at plain
  unfold SignatureCursor.stepAt?
  split <;> simp_all

theorem plain_of_foreign (foreign : 128 ≤ c.toNat) : c ∉ marks :=
  fun isMark => absurd (toNat_lt_of_mem_marks isMark) (Nat.not_lt.mpr foreign)

theorem exists_plain_byteAt? (starts : Starts text position (c :: rest)) (plain : c ∉ marks) :
    ∃ d, byteAt? text position = some d ∧ d ∉ marks := by
  rcases starts.exists_byteAt? with ⟨byte, _, found⟩
  refine ⟨_, found, ?_⟩
  intro isMark
  have same := (starts.byteAt?_eq_some_iff (toNat_lt_of_mem_marks isMark)).mp found
  simp only [List.head?_cons, Option.some.injEq] at same
  rw [same] at plain
  exact plain isMark

/-- At a mark both scans do the same. -/
theorem stepAt?_eq (starts : Starts text position (c :: rest)) (here : scan.rest = c :: rest)
    (isMark : c ∈ marks) :
    ∃ stop, (scan.cursor position).stepAt? text c = some (scan.step.cursor stop) ∧
      Starts text stop scan.step.rest := by
  have ahead : Starts text (position + 1) rest := starts.skip_ascii (toNat_lt_of_mem_marks isMark)
  simp only [marks, List.mem_cons, List.not_mem_nil, or_false] at isMark
  rcases isMark with rfl | rfl | rfl | rfl | rfl | rfl
  · have stepped : scan.step = scan.takeName [] rest := by simp [step, here]
    rw [stepped]
    exact takeName?_eq scan ahead []
  · have stepped : scan.step = scan.takeName (scan.current ++ ['$']) rest := by simp [step, here]
    have taken := takeName?_eq scan ahead (scan.current ++ ['$'])
    rw [stepped]
    rwa [String.ofList_append] at taken
  · have kept : (('T' :: rest).dropWhile fun c => !(c == ';')) = scan.step.rest := by
      simp [step, here, bne]
    rcases starts.find? (asciiOnly_eq (c := ';') (by decide)) with ⟨stop, found, reached, _⟩
    rw [kept] at reached
    refine ⟨stop, ?_, reached⟩
    simp [SignatureCursor.stepAt?, cursor, found, step, here]
  · refine ⟨position + 1, ?_, ?_⟩
    · simp [SignatureCursor.stepAt?, cursor, step, here]
    · simpa [step, here] using ahead
  · refine ⟨position + 1, ?_, ?_⟩
    · cases around : scan.enclosing <;>
        simp [SignatureCursor.stepAt?, cursor, step, here, around]
    · cases around : scan.enclosing <;> simpa [step, here, around] using ahead
  · rcases afterType?_eq scan ahead with ⟨stop, found, reached⟩
    refine ⟨stop, ?_, ?_⟩
    · simp [SignatureCursor.stepAt?, found, step, here]
      rfl
    · simpa [step, here] using reached

/-- A byte that is not a mark is passed over. -/
theorem iterate?_of_plain (here : byteAt? text position = some c) (plain : c ∉ marks)
    (scan : SignatureScan) :
    (scan.cursor position).iterate? text = some (.next (scan.cursor (position + 1))) := by
  rw [SignatureCursor.iterate?_of_byteAt? here, stepAt?_of_plain plain]
  rfl

/-- An iteration does what a step does, or passes a byte inside a character. -/
theorem iterate?_eq (precedes : Precedes text position scan.rest)
    (more : position < (encode text).length) :
    ∃ next following, (scan.cursor position).iterate? text =
        some (.next (following.cursor next)) ∧
      Precedes text next following.rest ∧ Reaches scan following := by
  -- Inside a character the scan through the characters waits.
  rcases precedes.starts_or_foreign with starts | ⟨d, byte, foreign, later⟩
  · cases here : scan.rest with
    | nil =>
        rw [here] at starts
        simp [starts.length_encode] at more
    | cons c rest =>
        rw [here] at starts
        have stepped : Reaches scan scan.step := .single ⟨by simp [here], rfl⟩
        by_cases isMark : c ∈ marks
        · have byte := (starts.byteAt?_eq_some_iff (toNat_lt_of_mem_marks isMark)).mpr rfl
          rcases stepAt?_eq starts here isMark with ⟨stop, step_eq, reached⟩
          refine ⟨stop, scan.step, ?_, reached.precedes, stepped⟩
          rw [SignatureCursor.iterate?_of_byteAt? byte, step_eq]
          rfl
        · rcases exists_plain_byteAt? starts isMark with ⟨d, byte, plain⟩
          have passed := step_of_plain isMark here
          refine ⟨position + 1, scan.step, ?_, ?_, stepped⟩
          · rw [iterate?_of_plain byte plain, passed]
            rfl
          · rw [passed]
            exact starts.precedes_next
  · exact ⟨position + 1, scan, iterate?_of_plain byte (plain_of_foreign foreign) scan, later, .refl⟩

theorem ends_of_precedes (precedes : Precedes text position scan.rest) :
    ∃ last stop, Ends (SignatureCursor.iterate? text) (scan.cursor position) (last.cursor stop) ∧
      Reaches scan last ∧ last.rest = [] := by
  -- Every iteration leaves fewer bytes.
  induction left : (encode text).length - position using Nat.strongRecOn
    generalizing position scan with
  | ind left ih =>
  by_cases more : position < (encode text).length
  · rcases iterate?_eq precedes more with ⟨next, following, stepped, later, reaches⟩
    have further : position < next := SignatureCursor.position_lt_of_iterate? stepped
    rcases ih _ (by omega) later rfl with ⟨last, stop, ends, onward, ended⟩
    exact ⟨last, stop, .next stepped ends, reaches.trans onward, ended⟩
  · refine ⟨scan, position, .done ?_, .refl, precedes.eq_nil_of_end (Nat.not_lt.mp more)⟩
    exact if_neg more

theorem start?_eq (text : String) :
    ∃ position, SignatureCursor.start? text = some ((start text.toList).cursor position) ∧
      Starts text position (start text.toList).rest := by
  have starts := starts_zero text
  have first := starts.byteAt?_eq_some_iff (c := '<') (by decide)
  by_cases opens : text.toList.head? = some '<'
  · rcases List.head?_eq_some_iff.mp opens with ⟨rest, here⟩
    rw [here] at starts
    rcases fromColon?_eq (starts.skip_ascii (by decide)) with ⟨position, found, ahead⟩
    simp only [here, start]
    refine ⟨position, ?_, ahead⟩
    rw [SignatureCursor.start?, if_pos (first.mpr opens), found]
    rfl
  · rw [start_of_unbracketed opens]
    refine ⟨0, ?_, starts⟩
    rw [SignatureCursor.start?, if_neg (mt first.mp opens)]
    rfl

/-- The scan through the bytes of a text ends where the scan through its characters ends. -/
theorem ends_start (text : String) :
    ∃ position last stop,
      SignatureCursor.start? text = some ((start text.toList).cursor position) ∧
      Ends (SignatureCursor.iterate? text) ((start text.toList).cursor position)
        (last.cursor stop) ∧
      (start text.toList).run text.toList.length = last ∧ last.rest = [] := by
  rcases start?_eq text with ⟨position, started, starts⟩
  rcases ends_of_precedes starts.precedes with ⟨last, stop, ends, reaches, ended⟩
  exact ⟨position, last, stop, started, ends,
    run_of_reaches reaches ended (length_rest_start_le _), ended⟩

end SignatureScan

/-- The state of a scan through the bytes of a descriptor. -/
structure DescriptorCursor where
  /-- The text that has not been read. -/
  rest : String
  /-- The class types found, latest first. -/
  found : List String

namespace DescriptorCursor

/-- One iteration of the scan. -/
def iterate? (cursor : DescriptorCursor) : Option (Iteration DescriptorCursor) :=
  match offsetOf? cursor.rest 'L' with
  | none => some .done
  | some start => do
    let after ← slice? cursor.rest (start + 1) (encode cursor.rest).length
    match offsetOf? after ';' with
    | none => return .done
    | some stop => do
      let name ← slice? after 0 stop
      let rest ← slice? after (stop + 1) (encode after).length
      return .next ⟨rest, name :: cursor.found⟩

end DescriptorCursor

theorem classTypes_none_append {before : List Char} (absent : 'L' ∉ before)
    (found : List (List Char)) (rest : List Char) :
    classTypes none found (before ++ rest) = classTypes none found rest := by
  induction before with
  | nil => rfl
  | cons c before ih =>
      simp only [List.mem_cons, not_or] at absent
      rw [List.cons_append, classTypes, if_neg (Ne.symm absent.1), ih absent.2]

theorem classTypes_some_append {inside : List Char} (unclosed : ';' ∉ inside) (part : List Char)
    (found : List (List Char)) (rest : List Char) :
    classTypes (some part) found (inside ++ rest) =
      classTypes (some (inside.reverse ++ part)) found rest := by
  induction inside generalizing part with
  | nil => rfl
  | cons c inside ih =>
      simp only [List.mem_cons, not_or] at unclosed
      rw [List.cons_append, classTypes, if_neg (Ne.symm unclosed.1), ih unclosed.2]
      simp

namespace DescriptorCursor

variable {cursor : DescriptorCursor}

/-- The class types found and those of the rest. -/
def allTypes (cursor : DescriptorCursor) : List (List Char) :=
  classTypes none (cursor.found.map String.toList) cursor.rest.toList

theorem foundNames_of_allTypes
    (same : cursor.allTypes = (cursor.found.map String.toList).reverse) :
    foundNames cursor.found = cursor.allTypes.map qualified := by
  simp [same, foundNames, ← List.map_reverse, Function.comp_def]

/-- An iteration ends the scan when no class type is left, or goes on after the first one. -/
theorem iterate?_cases (cursor : DescriptorCursor) :
    (cursor.iterate? = some .done ∧ foundNames cursor.found = cursor.allTypes.map qualified) ∨
      ∃ next, cursor.iterate? = some (.next next) ∧ next.allTypes = cursor.allTypes ∧
        next.rest.toList.length < cursor.rest.toList.length := by
  by_cases opens : 'L' ∈ cursor.rest.toList
  · rcases exists_offsetOf? (by decide) opens with
      ⟨before, after, start, split, absent, foundStart, _, cutAfter⟩
    have opened :
        cursor.allTypes = classTypes (some []) (cursor.found.map String.toList) after := by
      rw [allTypes, split, classTypes_none_append absent, classTypes, if_pos rfl]
    by_cases closes : ';' ∈ (String.ofList after).toList
    · right
      rcases exists_offsetOf? (by decide) closes with
        ⟨name, rest, stop, closed, unclosed, foundStop, cutName, cutRest⟩
      rw [String.toList_ofList] at closed
      refine ⟨⟨String.ofList rest, String.ofList name :: cursor.found⟩, ?_, ?_, ?_⟩
      · simp [iterate?, foundStart, cutAfter, foundStop, cutName, cutRest]
      · rw [opened, closed, classTypes_some_append unclosed, classTypes, if_pos rfl]
        simp [allTypes]
      · simp [split, closed]
        omega
    · left
      have noStop : offsetOf? (String.ofList after) ';' = none := if_neg closes
      rw [String.toList_ofList] at closes
      refine ⟨by simp [iterate?, foundStart, cutAfter, noStop], foundNames_of_allTypes ?_⟩
      rw [opened, ← List.append_nil after, classTypes_some_append closes, classTypes]
  · left
    have noStart : offsetOf? cursor.rest 'L' = none := if_neg opens
    refine ⟨by simp [iterate?, noStart], foundNames_of_allTypes ?_⟩
    rw [allTypes, ← List.append_nil cursor.rest.toList, classTypes_none_append opens, classTypes]

/-- The scan through the bytes of a text ends and finds the names. -/
theorem ends_names (cursor : DescriptorCursor) :
    ∃ last, Ends iterate? cursor last ∧ foundNames last.found = cursor.allTypes.map qualified := by
  induction left : cursor.rest.toList.length using Nat.strongRecOn generalizing cursor with
  | ind left ih =>
  rcases cursor.iterate?_cases with ⟨ended, names_eq⟩ | ⟨next, stepped, same, shorter⟩
  · exact ⟨cursor, .done ended, names_eq⟩
  · rcases ih _ (left ▸ shorter) next rfl with ⟨last, ends, names_eq⟩
    refine ⟨last, .next stepped ends, ?_⟩
    rw [names_eq, same]

end DescriptorCursor

/-- Whatever a text holds, both scans through its bytes end without a byte read or a text cut where
there is none, and find the names that the scans through its characters find. Every iteration over a
signature gets further in it, and the scan through its characters uses it up. -/
theorem name_scans_never_fail (text : String) :
    (∃ first last, SignatureCursor.start? text = some first ∧
      Ends (SignatureCursor.iterate? text) first last ∧
      foundNames last.found = signatureNames text) ∧
    (∀ cursor next, SignatureCursor.iterate? text cursor = some (.next next) →
      cursor.position < next.position) ∧
    ((SignatureScan.start text.toList).run text.toList.length).rest = [] ∧
    ∃ last, Ends DescriptorCursor.iterate? ⟨text, []⟩ last ∧
      foundNames last.found = descriptorNames text := by
  rcases SignatureScan.ends_start text with ⟨position, last, stop, started, ends, run_eq, ended⟩
  refine ⟨⟨_, _, started, ends, ?_⟩, ?_, ?_, DescriptorCursor.ends_names ⟨text, []⟩⟩
  · rw [SignatureScan.foundNames_cursor, signatureNames, run_eq]
  · exact fun cursor next => SignatureCursor.position_lt_of_iterate?
  · rw [run_eq, ended]

end Coupling.ClassFile
