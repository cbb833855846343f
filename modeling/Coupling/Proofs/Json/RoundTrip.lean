import Coupling.Json.Parser
import Coupling.Json.Printer

/-!
# Reading undoes writing

A string literal spells the text that it was written for, and a value is read
back from its text, provided that it is made of texts: it holds no numbers, and
all its strings and keys spell texts.

Both layouts put items between separators in the same way, and differ in the
blanks only. What is shown here of a value holds for any blanks.
-/

theorem Coupling.mapM_map_of_undone {α β : Type} {write : α → β} {read? : β → Option α}
    {list : List α} (undone : ∀ item ∈ list, read? (write item) = some item) :
    (list.map write).mapM read? = some list := by
  induction list with
  | nil => rfl
  | cons item rest ih =>
      rw [List.forall_mem_cons] at undone
      rw [List.map_cons, List.mapM_cons, undone.1, ih undone.2]
      rfl

namespace Coupling.Json

theorem skipBlanks_append {blanks : List Char} (blank : ∀ c ∈ blanks, isBlank c)
    (input : List Char) : skipBlanks (blanks ++ input) = skipBlanks input :=
  List.dropWhile_append_of_pos blank

theorem skipBlanks_cons {c : Char} (solid : isBlank c = false) (input : List Char) :
    skipBlanks (c :: input) = c :: input := by
  simp [skipBlanks, solid]

theorem codeUnit?_of_control : ∀ unit : Fin 32,
    codeUnit? '0' '0' (hexDigit (unit / 16)) (hexDigit (unit % 16)) = some unit.val := by
  decide

/-- A character is written by a one-letter escape, by its number or as it is. -/
theorem escapeChar_cases (c : Char) :
    (∃ letter, letter ≠ 'u' ∧ shortEscape? letter = some c ∧ escapeChar c = ['\\', letter]) ∨
    (c.toNat < 32 ∧ escapeChar c =
      ['\\', 'u', '0', '0', hexDigit (c.toNat / 16), hexDigit (c.toNat % 16)]) ∨
    (c ≠ '"' ∧ c ≠ '\\' ∧ ¬ c.toNat < 32 ∧ escapeChar c = [c]) := by
  by_cases named : c ∈ ['"', '\\', '\x08', '\t', '\n', '\x0c', '\r']
  · left
    simp only [List.mem_cons, List.not_mem_nil, or_false] at named
    rcases named with rfl | rfl | rfl | rfl | rfl | rfl | rfl
    all_goals
      refine ⟨_, ?_, ?_, rfl⟩
      · decide
      · rfl
  · right
    simp only [List.mem_cons, List.not_mem_nil, or_false, not_or] at named
    by_cases control : c.toNat < 32
    · exact .inl ⟨control, by simp [escapeChar, named, control]⟩
    · exact .inr ⟨named.1, named.2.1, control, by simp [escapeChar, named, control]⟩

/-- Reading a written character adds it to what has been spelt. -/
theorem stringBody_escapeChar (c : Char) (before : List Char) (rest : List Char) :
    stringBody ⟨some before, none⟩ (escapeChar c ++ rest) =
      stringBody ⟨some (c :: before), none⟩ rest := by
  rcases escapeChar_cases c with ⟨letter, notUnit, short, written⟩ | ⟨control, written⟩ |
    ⟨notQuote, notEscape, plain, written⟩
  · rw [written, List.cons_append, List.singleton_append, stringBody, short]
    · rfl
    · intro _ _ _ _ _ same
      exact absurd same notUnit
  · have unit := codeUnit?_of_control ⟨c.toNat, control⟩
    have notHigh : isHighSurrogate c.toNat = false := by
      apply Bool.and_eq_false_imp.mpr
      simp only [decide_eq_true_eq]
      omega
    have notLow : isLowSurrogate c.toNat = false := by
      apply Bool.and_eq_false_imp.mpr
      simp only [decide_eq_true_eq]
      omega
    simp only [written, List.cons_append, List.nil_append, stringBody, unit, Spelling.pushUnit,
      notHigh, notLow, Bool.false_eq_true, reduceIte, Char.ofNat_toNat]
    rfl
  · rw [written, List.singleton_append, stringBody, if_neg plain]
    · rfl
    all_goals simp [notQuote, notEscape]

theorem stringBody_escaped (chars before rest : List Char) :
    stringBody ⟨some before, none⟩ (chars.flatMap escapeChar ++ '"' :: rest) =
      some (some (String.ofList (before.reverse ++ chars)), rest) := by
  induction chars generalizing before with
  | nil => simp [stringBody, Spelling.text, Spelling.settled]
  | cons c chars ih =>
      rw [List.flatMap_cons, List.append_assoc, stringBody_escapeChar, ih, List.reverse_cons,
        List.append_assoc, List.singleton_append]

theorem stringBody_quote (content : String) (rest : List Char) :
    ∃ body, quote (some content) ++ rest = '"' :: body ∧
      stringBody .empty body = some (some content, rest) := by
  refine ⟨content.toList.flatMap escapeChar ++ '"' :: rest, by simp [quote], ?_⟩
  rw [Spelling.empty, stringBody_escaped]
  simp

theorem skipBlanks_idem (input : List Char) : skipBlanks (skipBlanks input) = skipBlanks input := by
  induction input with
  | nil => rfl
  | cons c rest ih =>
      by_cases blank : isBlank c
      · simpa [skipBlanks, blank] using ih
      · simp [skipBlanks, blank]

theorem value_skipBlanks (fuel : Nat) (input : List Char) :
    value fuel (skipBlanks input) = value fuel input := by
  cases fuel with
  | zero => rfl
  | succ fuel => rw [value, value, skipBlanks_idem]

theorem value_blanks {blanks : List Char} (blank : ∀ c ∈ blanks, isBlank c) (fuel : Nat)
    (input : List Char) : value fuel (blanks ++ input) = value fuel input := by
  rw [← value_skipBlanks, skipBlanks_append blank, value_skipBlanks]

theorem items_skipBlanks (fuel : Nat) (found : List Json) (input : List Char) :
    items fuel found (skipBlanks input) = items fuel found input := by
  cases fuel with
  | zero => rfl
  | succ fuel => rw [items, items, value_skipBlanks]

theorem members_skipBlanks (fuel : Nat) (found : List (Json.Text × Json)) (input : List Char) :
    members fuel found (skipBlanks input) = members fuel found input := by
  cases fuel with
  | zero => rfl
  | succ fuel => rw [members, members, skipBlanks_idem]

/-- The text starts with neither a blank nor a closing bracket. -/
def Starts (text : List Char) : Prop :=
  ∃ c more, text = c :: more ∧ isBlank c = false ∧ c ≠ ']' ∧ c ≠ '\x7d'

/-- The text is read as the value, whatever follows it. -/
structure Spells (text : List Char) (json : Json) : Prop where
  starts : Starts text
  reads : ∀ fuel rest, text.length ≤ fuel → value fuel (text ++ rest) = some (json, rest)

theorem Spells.of_succ {text : List Char} {json : Json} (starts : Starts text)
    (reads : ∀ fuel rest, text.length ≤ fuel + 1 →
      value (fuel + 1) (text ++ rest) = some (json, rest)) : Spells text json := by
  refine ⟨starts, fun fuel rest enough => ?_⟩
  cases fuel with
  | zero =>
      rcases starts with ⟨c, more, rfl, _⟩
      exact absurd enough (Nat.not_succ_le_zero _)
  | succ fuel => exact reads fuel rest enough

/-- Texts with commas between them and the same blanks in front of each. -/
def laidOut (lead : List Char) : List (List Char) → List Char
  | [] => []
  | [text] => lead ++ text
  | text :: next :: rest => lead ++ (text ++ ',' :: laidOut lead (next :: rest))

/-- A loop that reads an item in front of a comma or of the ending reads a whole list of them. -/
theorem loop_laidOut {α : Type} {loop : Nat → List α → List Char → Option (List α × List Char)}
    {word : α → List Char} {lead ending rest : List Char} {list : List α} {fuel : Nat}
    (next : ∀ item ∈ list, ∀ fuel found after, (word item).length ≤ fuel →
      loop (fuel + 1) found (lead ++ (word item ++ ',' :: after)) = loop fuel (item :: found) after)
    (last : ∀ item ∈ list, ∀ fuel found, (word item).length ≤ fuel →
      loop (fuel + 1) found (lead ++ (word item ++ ending)) = some ((item :: found).reverse, rest))
    (nonempty : list ≠ []) (enough : (laidOut lead (list.map word)).length < fuel)
    (found : List α) :
    loop fuel found (laidOut lead (list.map word) ++ ending) =
      some (found.reverse ++ list, rest) := by
  induction list generalizing fuel found with
  | nil => exact absurd rfl nonempty
  | cons item others ih =>
      rw [List.forall_mem_cons] at next last
      cases fuel with
      | zero => exact absurd enough (Nat.not_lt_zero _)
      | succ fuel =>
          cases others with
          | nil =>
              simp only [List.map_cons, List.map_nil, laidOut, List.length_append] at enough ⊢
              rw [List.append_assoc, last.1 fuel found (by omega), List.reverse_cons]
          | cons following more =>
              simp only [List.map_cons, laidOut, List.length_append, List.length_cons,
                List.append_assoc, List.cons_append] at enough ih ⊢
              rw [next.1 fuel found _ (by omega),
                ih next.2 last.2 (List.cons_ne_nil _ _) (by omega), List.reverse_cons,
                List.append_assoc, List.singleton_append]

section Lists

variable {text : Json → List Char} {lead gap tail after : List Char} {fuel : Nat}

theorem items_step {item : Json} (leadBlank : ∀ c ∈ lead, isBlank c)
    (spells : Spells (text item) item) (enough : (text item).length ≤ fuel) (found : List Json) :
    items (fuel + 1) found (lead ++ (text item ++ after)) =
      match skipBlanks after with
      | ',' :: rest => items fuel (item :: found) rest
      | ']' :: rest => some ((item :: found).reverse, rest)
      | _ => none := by
  rw [items, value_blanks leadBlank, spells.reads fuel after enough]
  rfl

theorem items_laidOut {list : List Json} (leadBlank : ∀ c ∈ lead, isBlank c)
    (tailBlank : ∀ c ∈ tail, isBlank c) (each : ∀ item ∈ list, Spells (text item) item)
    (nonempty : list ≠ []) (enough : (laidOut lead (list.map text)).length < fuel)
    (rest : List Char) :
    items fuel [] (laidOut lead (list.map text) ++ (tail ++ ']' :: rest)) = some (list, rest) := by
  refine loop_laidOut ?_ ?_ nonempty enough []
  · intro item itemMem fuel found after enough
    rw [items_step leadBlank (each item itemMem) enough, skipBlanks_cons (by decide)]
    rfl
  · intro item itemMem fuel found enough
    rw [items_step leadBlank (each item itemMem) enough, skipBlanks_append tailBlank,
      skipBlanks_cons (by decide)]
    rfl

/-- A member of an object with the given blanks before its value. -/
def memberText (gap : List Char) (text : Json → List Char) (member : Json.Text × Json) :
    List Char :=
  quote member.1 ++ ':' :: (gap ++ text member.2)

theorem members_step {member : Json.Text × Json} (leadBlank : ∀ c ∈ lead, isBlank c)
    (gapBlank : ∀ c ∈ gap, isBlank c) (key : member.1.isSome)
    (spells : Spells (text member.2) member.2)
    (enough : (memberText gap text member).length ≤ fuel) (found : List (Json.Text × Json)) :
    members (fuel + 1) found (lead ++ (memberText gap text member ++ after)) =
      match skipBlanks after with
      | ',' :: rest => members fuel (member :: found) rest
      | '\x7d' :: rest => some ((member :: found).reverse, rest)
      | _ => none := by
  rcases member with ⟨key, item⟩
  rcases Option.isSome_iff_exists.mp key with ⟨content, rfl⟩
  rcases stringBody_quote content (':' :: (gap ++ (text item ++ after))) with ⟨body, quoted, read⟩
  have opened : skipBlanks (lead ++ (memberText gap text (some content, item) ++ after)) =
      '"' :: body := by
    rw [skipBlanks_append leadBlank, memberText, List.append_assoc, List.cons_append,
      List.append_assoc, quoted]
    exact skipBlanks_cons (by decide) body
  have shorter : (text item).length ≤ fuel := by
    simp only [memberText, List.length_append, List.length_cons] at enough
    omega
  have valueRead : value fuel (gap ++ (text item ++ after)) = some (item, after) := by
    rw [value_blanks gapBlank]
    exact spells.reads fuel after shorter
  rw [members, opened]
  simp only [read, Option.bind_eq_bind, Option.bind_some, skipBlanks_cons (c := ':') rfl, valueRead]
  rfl

theorem members_laidOut {list : List (Json.Text × Json)}
    (leadBlank : ∀ c ∈ lead, isBlank c) (gapBlank : ∀ c ∈ gap, isBlank c)
    (tailBlank : ∀ c ∈ tail, isBlank c) (keys : ∀ member ∈ list, member.1.isSome)
    (each : ∀ member ∈ list, Spells (text member.2) member.2) (nonempty : list ≠ [])
    (enough : (laidOut lead (list.map (memberText gap text))).length < fuel)
    (rest : List Char) :
    members fuel []
        (laidOut lead (list.map (memberText gap text)) ++ (tail ++ '\x7d' :: rest)) =
      some (list, rest) := by
  refine loop_laidOut ?_ ?_ nonempty enough []
  · intro member memberMem fuel found after enough
    rw [members_step leadBlank gapBlank (keys member memberMem) (each member memberMem) enough,
      skipBlanks_cons (by decide)]
    rfl
  · intro member memberMem fuel found enough
    rw [members_step leadBlank gapBlank (keys member memberMem) (each member memberMem) enough,
      skipBlanks_append tailBlank, skipBlanks_cons (by decide)]
    rfl

/-- What follows an opening bracket is no closing one. -/
theorem skipBlanks_laidOut {texts : List (List Char)} (leadBlank : ∀ c ∈ lead, isBlank c)
    (starts : ∀ text ∈ texts, Starts text) (nonempty : texts ≠ []) (rest : List Char) :
    ∃ c more, skipBlanks (laidOut lead texts ++ rest) = c :: more ∧ c ≠ ']' ∧ c ≠ '\x7d' := by
  cases texts with
  | nil => exact absurd rfl nonempty
  | cons first others =>
      rcases starts first List.mem_cons_self with ⟨c, more, rfl, solid, unlike⟩
      cases others with
      | nil =>
          refine ⟨c, more ++ rest, ?_, unlike⟩
          rw [laidOut, List.append_assoc, skipBlanks_append leadBlank]
          exact skipBlanks_cons solid _
      | cons next following =>
          refine ⟨c, more ++ ',' :: (laidOut lead (next :: following) ++ rest), ?_, unlike⟩
          simp only [laidOut, List.append_assoc, List.cons_append]
          rw [skipBlanks_append leadBlank, skipBlanks_cons solid]

theorem value_array {inside more rest : List Char} {c : Char} {found : List Json}
    (opened : skipBlanks inside = c :: more) (unlike : c ≠ ']')
    (read : items fuel [] inside = some (found, rest)) :
    value (fuel + 1) ('[' :: inside) = some (.array found, rest) := by
  rw [← items_skipBlanks, opened] at read
  rw [value, skipBlanks_cons (by decide)]
  simp only [opened]
  split
  · next closed => exact absurd (List.cons.inj closed).1 unlike
  · rw [read]
    rfl

theorem value_object {inside more rest : List Char} {c : Char}
    {found : List (Json.Text × Json)} (opened : skipBlanks inside = c :: more)
    (unlike : c ≠ '\x7d') (read : members fuel [] inside = some (found, rest)) :
    value (fuel + 1) ('\x7b' :: inside) = some (.object found, rest) := by
  rw [← members_skipBlanks, opened] at read
  rw [value, skipBlanks_cons (by decide)]
  simp only [opened]
  split
  · next closed => exact absurd (List.cons.inj closed).1 unlike
  · rw [read]
    rfl

theorem Spells.array {list : List Json} (leadBlank : ∀ c ∈ lead, isBlank c)
    (tailBlank : ∀ c ∈ tail, isBlank c) (each : ∀ item ∈ list, Spells (text item) item)
    (nonempty : list ≠ []) :
    Spells ('[' :: (laidOut lead (list.map text) ++ (tail ++ [']']))) (.array list) := by
  refine .of_succ ⟨'[', _, rfl, by decide, by decide, by decide⟩ fun fuel rest enough => ?_
  simp only [List.length_cons, List.length_append, List.cons_append, List.append_assoc,
    List.nil_append] at enough ⊢
  have starts : ∀ written ∈ list.map text, Starts written := by
    simpa using fun item itemMem => (each item itemMem).starts
  rcases skipBlanks_laidOut leadBlank starts (by simpa using nonempty) (tail ++ ']' :: rest)
    with ⟨c, more, opened, unlike, _⟩
  exact value_array opened unlike
    (items_laidOut leadBlank tailBlank each nonempty (by omega) rest)

theorem Spells.object {list : List (Json.Text × Json)} (leadBlank : ∀ c ∈ lead, isBlank c)
    (gapBlank : ∀ c ∈ gap, isBlank c) (tailBlank : ∀ c ∈ tail, isBlank c)
    (keys : ∀ member ∈ list, member.1.isSome)
    (each : ∀ member ∈ list, Spells (text member.2) member.2) (nonempty : list ≠ []) :
    Spells ('\x7b' :: (laidOut lead (list.map (memberText gap text)) ++ (tail ++ ['\x7d'])))
      (.object list) := by
  refine .of_succ ⟨'\x7b', _, rfl, by decide, by decide, by decide⟩ fun fuel rest enough => ?_
  simp only [List.length_cons, List.length_append, List.cons_append, List.append_assoc,
    List.nil_append] at enough ⊢
  have starts : ∀ written ∈ list.map (memberText gap text), Starts written := by
    intro written writtenMem
    rcases List.mem_map.mp writtenMem with ⟨member, _, rfl⟩
    exact ⟨'"', _, rfl, by decide, by decide, by decide⟩
  rcases skipBlanks_laidOut leadBlank starts (by simpa using nonempty) (tail ++ '\x7d' :: rest)
    with ⟨c, more, opened, _, unlike⟩
  exact value_object opened unlike
    (members_laidOut leadBlank gapBlank tailBlank keys each nonempty (by omega) rest)

end Lists

/-- A value without numbers in which every string and every key spells a text. -/
inductive Textual : Json → Prop where
  | null : Textual .null
  | bool (flag : Bool) : Textual (.bool flag)
  | text (content : String) : Textual (.text content)
  | array {list : List Json} (each : ∀ item ∈ list, Textual item) : Textual (.array list)
  | object {list : List (Json.Text × Json)} (keys : ∀ member ∈ list, member.1.isSome)
      (each : ∀ member ∈ list, Textual member.2) : Textual (.object list)

theorem Spells.text (content : String) : Spells (quote (some content)) (.text content) := by
  refine .of_succ ⟨'"', _, rfl, by decide, by decide, by decide⟩ fun fuel rest _ => ?_
  rcases stringBody_quote content rest with ⟨body, quoted, read⟩
  rw [quoted, value, skipBlanks_cons (by decide)]
  simp only [read]
  rfl

/-- A text that is a value by itself: a literal, or an array or object that holds nothing. -/
theorem Spells.fixed {c : Char} {more : List Char} {json : Json}
    (solid : isBlank c = false ∧ c ≠ ']' ∧ c ≠ '\x7d')
    (reads : ∀ fuel rest, value (fuel + 1) (c :: more ++ rest) = some (json, rest)) :
    Spells (c :: more) json :=
  .of_succ ⟨c, more, rfl, solid⟩ fun fuel rest _ => reads fuel rest

/-- A layout puts blanks in front of each item of an array or object, in front of the value of each
member and behind the last item. What holds nothing is written without blanks. -/
structure Layout where
  write : Nat → Json → List Char
  lead : Nat → List Char
  gap : List Char
  tail : Nat → List Char
  lead_blank (level : Nat) : ∀ c ∈ lead level, isBlank c
  gap_blank : ∀ c ∈ gap, isBlank c
  tail_blank (level : Nat) : ∀ c ∈ tail level, isBlank c
  write_null (level : Nat) : write level .null = ['n', 'u', 'l', 'l']
  write_true (level : Nat) : write level (.bool true) = ['t', 'r', 'u', 'e']
  write_false (level : Nat) : write level (.bool false) = ['f', 'a', 'l', 's', 'e']
  write_text (level : Nat) (content : String) : write level (.text content) = quote (some content)
  write_array_nil (level : Nat) : write level (.array []) = ['[', ']']
  write_object_nil (level : Nat) : write level (.object []) = ['\x7b', '\x7d']
  write_array_cons (level : Nat) (item : Json) (rest : List Json) :
    write level (.array (item :: rest)) =
      '[' :: (laidOut (lead level) ((item :: rest).map (write (level + 1))) ++
        (tail level ++ [']']))
  write_object_cons (level : Nat) (member : Json.Text × Json) (rest : List (Json.Text × Json)) :
    write level (.object (member :: rest)) =
      '\x7b' :: (laidOut (lead level) ((member :: rest).map (memberText gap (write (level + 1)))) ++
        (tail level ++ ['\x7d']))

theorem Textual.spells {json : Json} (textual : Textual json) (layout : Layout) (level : Nat) :
    Spells (layout.write level json) json := by
  induction textual generalizing level with
  | null =>
      rw [layout.write_null]
      exact .fixed (by decide) fun _ _ => rfl
  | bool flag =>
      cases flag with
      | false =>
          rw [layout.write_false]
          exact .fixed (by decide) fun _ _ => rfl
      | true =>
          rw [layout.write_true]
          exact .fixed (by decide) fun _ _ => rfl
  | text content =>
      rw [layout.write_text]
      exact .text content
  | @array list each ih =>
      cases list with
      | nil =>
          rw [layout.write_array_nil]
          exact .fixed (by decide) fun _ _ => rfl
      | cons item rest =>
          rw [layout.write_array_cons]
          apply Spells.array (layout.lead_blank level) (layout.tail_blank level)
          · exact fun item itemMem => ih item itemMem (level + 1)
          · exact List.cons_ne_nil _ _
  | @object list keys each ih =>
      cases list with
      | nil =>
          rw [layout.write_object_nil]
          exact .fixed (by decide) fun _ _ => rfl
      | cons member rest =>
          rw [layout.write_object_cons]
          apply Spells.object (layout.lead_blank level) layout.gap_blank (layout.tail_blank level)
            keys
          · exact fun member memberMem => ih member memberMem (level + 1)
          · exact List.cons_ne_nil _ _

theorem prettyItems_eq (level : Nat) (list : List Json) :
    prettyItems level list = laidOut (newline level) (list.map (prettyChars level)) := by
  induction list with
  | nil => rfl
  | cons item rest ih =>
      cases rest with
      | nil => rfl
      | cons next more => rw [prettyItems, ih]; rfl

theorem prettyMembers_eq (level : Nat) (list : List (Json.Text × Json)) :
    prettyMembers level list =
      laidOut (newline level) (list.map (memberText [' '] (prettyChars level))) := by
  induction list with
  | nil => rfl
  | cons member rest ih =>
      cases rest with
      | nil => rfl
      | cons next more => rw [prettyMembers, ih]; simp [laidOut, memberText]

theorem isBlank_newline (level : Nat) : ∀ c ∈ newline level, isBlank c := by
  simp [newline, isBlank]

/-- One item a line. -/
def prettyLayout : Layout where
  write := prettyChars
  lead level := newline (level + 1)
  gap := [' ']
  tail := newline
  lead_blank level := isBlank_newline (level + 1)
  gap_blank := by simp [isBlank]
  tail_blank := isBlank_newline
  write_null _ := rfl
  write_true _ := rfl
  write_false _ := rfl
  write_text _ _ := rfl
  write_array_nil _ := rfl
  write_object_nil _ := rfl
  write_array_cons level item rest := by rw [← prettyItems_eq]; rfl
  write_object_cons level member rest := by rw [← prettyMembers_eq]; rfl

theorem compactItems_eq (list : List Json) :
    compactItems list = laidOut [] (list.map compactChars) := by
  induction list with
  | nil => rfl
  | cons item rest ih =>
      cases rest with
      | nil => rfl
      | cons next more => rw [compactItems, ih]; rfl

theorem compactMembers_eq (list : List (Json.Text × Json)) :
    compactMembers list = laidOut [] (list.map (memberText [] compactChars)) := by
  induction list with
  | nil => rfl
  | cons member rest ih =>
      cases rest with
      | nil => rfl
      | cons next more => rw [compactMembers, ih]; simp [laidOut, memberText]

/-- No blanks at all. -/
def compactLayout : Layout where
  write _ := compactChars
  lead _ := []
  gap := []
  tail _ := []
  lead_blank _ := List.forall_mem_nil _
  gap_blank := List.forall_mem_nil _
  tail_blank _ := List.forall_mem_nil _
  write_null _ := rfl
  write_true _ := rfl
  write_false _ := rfl
  write_text _ _ := rfl
  write_array_nil _ := rfl
  write_object_nil _ := rfl
  write_array_cons level item rest := by rw [← compactItems_eq]; rfl
  write_object_cons level member rest := by rw [← compactMembers_eq]; rfl

theorem Spells.parse? {text : List Char} {json : Json} (spells : Spells text json) :
    parse? (String.ofList text) = some json := by
  have enough : text.length ≤ 2 * text.length + 2 := by omega
  have read := spells.reads _ [] enough
  rw [List.append_nil] at read
  simp [Json.parse?, read, skipBlanks]

theorem Textual.parse?_pretty {json : Json} (textual : Textual json) :
    parse? json.pretty = some json :=
  (textual.spells prettyLayout 0).parse?

/-- Both layouts are undone by reading. -/
theorem Textual.parse?_format {json : Json} (textual : Textual json) (compact : Bool) :
    parse? (json.format compact) = some json := by
  cases compact with
  | false => exact textual.parse?_pretty
  | true => exact (textual.spells compactLayout 0).parse?

theorem Textual.texts (contents : List String) : Textual (.texts contents) := by
  refine .array fun item itemMem => ?_
  rcases List.mem_map.mp itemMem with ⟨content, _, rfl⟩
  exact .text content

theorem Textual.record {fields : List (String × Json)} (each : ∀ field ∈ fields, Textual field.2) :
    Textual (.record fields) := by
  refine .object ?_ ?_
  · intro member memberMem
    rcases List.mem_map.mp memberMem with ⟨field, _, rfl⟩
    rfl
  · intro member memberMem
    rcases List.mem_map.mp memberMem with ⟨field, fieldMem, rfl⟩
    exact each field fieldMem

theorem asTexts?_texts (contents : List String) :
    (Json.texts contents).asTexts? = some contents :=
  mapM_map_of_undone fun _ _ => rfl

end Coupling.Json
