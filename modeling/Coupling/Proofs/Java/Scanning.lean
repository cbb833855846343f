import Coupling.Java.Token.Scanner

/-!
# Scanning what tokens spell

Tokens that are written one after the other, with blanks before some of them, are
scanned back as they were written. All that can go wrong is that a token runs on
into what follows it, so each token has to end before the rest of the text: no
letter follows a word, and no longer mark starts where a mark does.
-/

namespace Coupling.Java.Scanner

/-- The scanner takes a text from the front, with no more steps than the text has characters. -/
def Takes (state : State) (text rest : List Char) (next : State) : Prop :=
  ∃ steps ≤ text.length, ∀ fuel, run? (fuel + steps) state (text ++ rest) = run? fuel next rest

namespace Takes

variable {state middle next : State} {text more rest : List Char}

theorem refl (state : State) (rest : List Char) : Takes state [] rest state :=
  ⟨0, Nat.zero_le 0, fun _ => rfl⟩

theorem step (present : text ≠ []) (stepped : step? state (text ++ rest) = some (next, rest)) :
    Takes state text rest next := by
  refine ⟨1, List.length_pos_iff.mpr present, ?_⟩
  intro fuel
  cases text with
  | nil => exact absurd rfl present
  | cons first others =>
      rw [List.cons_append] at stepped ⊢
      rw [run?, stepped]
      simp

theorem trans (first : Takes state text (more ++ rest) middle)
    (second : Takes middle more rest next) : Takes state (text ++ more) rest next := by
  rcases first with ⟨steps, few, runs⟩
  rcases second with ⟨steps', few', runs'⟩
  refine ⟨steps' + steps, by rw [List.length_append]; omega, ?_⟩
  intro fuel
  rw [← Nat.add_assoc, List.append_assoc, runs, runs']

theorem run (taken : Takes state text [] next) : run? text.length state text = some next := by
  rcases taken with ⟨steps, few, runs⟩
  have ran := runs (text.length - steps)
  rw [Nat.sub_add_cancel few, List.append_nil] at ran
  rw [ran]
  cases text.length - steps <;> rfl

end Takes

/-- The text is a word that ends before the rest. -/
structure IsWord (word rest : List Char) : Prop where
  starts : ∃ first ∈ word.head?, startsWord first = true
  continues : ∀ char ∈ word, continuesWord char = true
  ends : ∀ char ∈ rest.head?, continuesWord char = false

/-- The text is a mark that ends before the rest, and starts no comment, literal or word. -/
structure IsMark (mark rest : List Char) : Prop where
  starts : ∃ first ∈ mark.head?, isBlank first = false ∧ startsWord first = false ∧
    first.isDigit = false ∧ first ∉ ['/', '"', '\x27', '.']
  longest : mark? (mark ++ rest) = some mark

theorem isAlpha_iff {char : Char} :
    char.isAlpha = true ↔
      65 ≤ char.toNat ∧ char.toNat ≤ 90 ∨ 97 ≤ char.toNat ∧ char.toNat ≤ 122 := by
  have letters : char.isAlpha =
      (decide (char.val ≥ 'A'.val ∧ char.val ≤ 'Z'.val) ||
        (decide (char.val ≥ 'a'.val) && decide (char.val ≤ 'z'.val))) := rfl
  simp [letters, UInt32.le_iff_toNat_le]

theorem isBlank_of_startsWord {char : Char} (starts : startsWord char = true) :
    isBlank char = false := by
  cases blank : isBlank char with
  | false => rfl
  | true =>
      simp [startsWord, isBlank, isAlpha_iff, ← Char.toNat_inj] at starts blank
      omega

theorem span_append {taken rest : List Char} {allowed : Char → Bool}
    (all : ∀ char ∈ taken, allowed char = true)
    (ends : ∀ char ∈ rest.head?, allowed char = false) :
    (taken ++ rest).takeWhile allowed = taken ∧ (taken ++ rest).dropWhile allowed = rest := by
  rw [List.takeWhile_append_of_pos all, List.dropWhile_append_of_pos all]
  cases rest with
  | nil => simp
  | cons first others => simp [ends first rfl]

/-- What a step does at a character that starts neither a comment nor a quoted literal. -/
theorem step?_plain {first : Char} (plain : first ∉ ['/', '"', '\x27']) (state : State)
    (rest : List Char) :
    (isBlank first = true →
      step? state (first :: rest) =
        some (state.addTrivia (.blank (String.ofList ((first :: rest).takeWhile isBlank))),
          (first :: rest).dropWhile isBlank)) ∧
    (isBlank first = false → startsWord first = true →
      step? state (first :: rest) =
        some (state.addToken .word ((first :: rest).takeWhile continuesWord),
          (first :: rest).dropWhile continuesWord)) ∧
    (isBlank first = false → startsWord first = false → first.isDigit = false → first ≠ '.' →
      state.holes = [] →
      step? state (first :: rest) =
        (mark? (first :: rest)).map fun mark =>
          (state.addMark mark, (first :: rest).drop mark.length)) := by
  unfold step?
  split
  case h_7 same =>
    injection same with same_first same_rest
    subst same_first same_rest
    simp +contextual
  all_goals simp_all

theorem not_mem_of_allowed {allowed : Char → Bool} {first : Char} {excluded : List Char}
    (refused : excluded.any allowed = false) (accepted : allowed first = true) :
    first ∉ excluded := by
  intro member
  rw [List.any_eq_false] at refused
  exact refused first member accepted

theorem takes_blanks {blanks rest : List Char} (present : blanks ≠ [])
    (blank : ∀ char ∈ blanks, isBlank char = true)
    (ends : ∀ char ∈ rest.head?, isBlank char = false) (state : State) :
    Takes state blanks rest (state.addTrivia (.blank (String.ofList blanks))) := by
  apply Takes.step present
  have spanned := span_append blank ends
  cases blanks with
  | nil => exact absurd rfl present
  | cons first others =>
      have isBlank_first := blank first List.mem_cons_self
      have plain : first ∉ ['/', '"', '\x27'] := not_mem_of_allowed (by decide) isBlank_first
      rw [List.cons_append] at spanned ⊢
      rw [(step?_plain plain state _).1 isBlank_first, spanned.1, spanned.2]

theorem takes_word {word rest : List Char} (isWord : IsWord word rest) (state : State) :
    Takes state word rest (state.addToken .word word) := by
  rcases isWord with ⟨⟨first, first_mem, startsWord_first⟩, continues, ends⟩
  have spanned := span_append continues ends
  rcases List.head?_eq_some_iff.mp first_mem with ⟨others, rfl⟩
  apply Takes.step (List.cons_ne_nil first others)
  have isBlank_first := isBlank_of_startsWord startsWord_first
  have plain : first ∉ ['/', '"', '\x27'] := not_mem_of_allowed (by decide) startsWord_first
  rw [List.cons_append] at spanned ⊢
  rw [(step?_plain plain state _).2.1 isBlank_first startsWord_first, spanned.1, spanned.2]

theorem addMark_outside (mark : List Char) (before : List Trivia) (tokens : List Token) :
    State.addMark ⟨[], before, tokens⟩ mark = State.addToken ⟨[], before, tokens⟩ .mark mark := by
  unfold State.addMark
  split <;> simp_all

theorem takes_mark {mark rest : List Char} (isMark : IsMark mark rest) (before : List Trivia)
    (tokens : List Token) :
    Takes ⟨[], before, tokens⟩ mark rest (State.addToken ⟨[], before, tokens⟩ .mark mark) := by
  rcases isMark with ⟨⟨first, first_mem, isBlank_first, startsWord_first, isDigit_first, plain⟩,
    longest⟩
  rcases List.head?_eq_some_iff.mp first_mem with ⟨others, rfl⟩
  apply Takes.step (List.cons_ne_nil first others)
  have dot : first ≠ '.' := fun same => plain (by simp [same])
  have unquoted : first ∉ ['/', '"', '\x27'] := fun quote => plain (by simp_all)
  rw [List.cons_append] at longest ⊢
  rw [(step?_plain unquoted _ _).2.2 isBlank_first startsWord_first isDigit_first dot rfl, longest,
    Option.map_some, addMark_outside]
  simp

/-- What is kept of blanks. -/
def blankTrivia (blanks : List Char) : List Trivia :=
  if blanks.isEmpty then [] else [.blank (String.ofList blanks)]

/-- The token ends before the rest of the text, and only blanks stand before it. -/
structure EndsBefore (token : Token) (rest : List Char) : Prop where
  before : ∃ blanks, (∀ char ∈ blanks, isBlank char = true) ∧ token.before = blankTrivia blanks
  text : token.shape = .word ∧ IsWord token.text.toList rest ∨
    token.shape = .mark ∧ IsMark token.text.toList rest

/-- The characters that tokens are written with. -/
def spelling (tokens : List Token) : List Char :=
  tokens.flatMap fun token => token.fullText.toList

/-- Each token ends before those after it and the rest of the text. -/
def EndEach (rest : List Char) : List Token → Prop
  | [] => True
  | token :: others => EndsBefore token (spelling others ++ rest) ∧ EndEach rest others

theorem takes_blankTrivia {blanks rest : List Char}
    (blank : ∀ char ∈ blanks, isBlank char = true)
    (ends : ∀ char ∈ rest.head?, isBlank char = false) (tokens : List Token) :
    Takes ⟨[], [], tokens⟩ blanks rest ⟨[], blankTrivia blanks, tokens⟩ := by
  cases blanks with
  | nil => exact Takes.refl _ rest
  | cons first others => exact takes_blanks (List.cons_ne_nil first others) blank ends _

theorem spelling_blankTrivia (blanks : List Char) (shape : Shape) (text : String) :
    (Token.fullText ⟨blankTrivia blanks, shape, text⟩).toList = blanks ++ text.toList := by
  cases blanks with
  | nil => simp [Token.fullText, blankTrivia]
  | cons first others => simp [Token.fullText, blankTrivia, Trivia.text]

theorem reverse_blankTrivia (blanks : List Char) :
    (blankTrivia blanks).reverse = blankTrivia blanks := by
  unfold blankTrivia
  split <;> rfl

theorem EndsBefore.starts {token : Token} {rest : List Char} (ends : EndsBefore token rest) :
    ∀ char ∈ (token.text.toList ++ rest).head?, isBlank char = false := by
  have starts : ∃ first ∈ token.text.toList.head?, isBlank first = false := by
    rcases ends.text with ⟨_, isWord⟩ | ⟨_, isMark⟩
    · rcases isWord.starts with ⟨first, first_mem, startsWord_first⟩
      exact ⟨first, first_mem, isBlank_of_startsWord startsWord_first⟩
    · rcases isMark.starts with ⟨first, first_mem, isBlank_first, _⟩
      exact ⟨first, first_mem, isBlank_first⟩
  rcases starts with ⟨first, first_mem, isBlank_first⟩
  rcases List.head?_eq_some_iff.mp first_mem with ⟨others, text⟩
  simp [text, isBlank_first]

theorem takes_token {token : Token} {rest : List Char} (ends : EndsBefore token rest)
    (tokens : List Token) :
    Takes ⟨[], [], tokens⟩ token.fullText.toList rest ⟨[], [], token :: tokens⟩ := by
  have starts := ends.starts
  rcases token with ⟨before, shape, text⟩
  rcases ends with ⟨⟨blanks, blank, rfl⟩, isText⟩
  rw [spelling_blankTrivia]
  -- the blanks end where the token starts
  apply Takes.trans (takes_blankTrivia blank starts tokens)
  rcases isText with ⟨rfl, isWord⟩ | ⟨rfl, isMark⟩
  · have taken := takes_word isWord ⟨[], blankTrivia blanks, tokens⟩
    rwa [State.addToken, reverse_blankTrivia, String.ofList_toList] at taken
  · have taken := takes_mark isMark (blankTrivia blanks) tokens
    rwa [State.addToken, reverse_blankTrivia, String.ofList_toList] at taken

theorem takes_spelling {tokens : List Token} {rest : List Char} (ends : EndEach rest tokens)
    (found : List Token) :
    Takes ⟨[], [], found⟩ (spelling tokens) rest ⟨[], [], tokens.reverse ++ found⟩ := by
  induction tokens generalizing found with
  | nil => exact Takes.refl _ rest
  | cons token others ih =>
      have taken := (takes_token ends.1 found).trans (ih ends.2 (token :: found))
      simpa [spelling] using taken

theorem endEach_append {tokens others : List Token} {rest : List Char} :
    EndEach rest (tokens ++ others) ↔
      EndEach (spelling others ++ rest) tokens ∧ EndEach rest others := by
  induction tokens with
  | nil => simp [EndEach]
  | cons token more ih => simp [EndEach, ih, spelling, and_assoc]

/-- The tokens of a text that spells tokens, with blanks after the last, are these tokens. -/
theorem scan?_spelling {source : String} {tokens : List Token} {trailing : List Char}
    (spelled : source.toList = spelling tokens ++ trailing) (ends : EndEach trailing tokens)
    (blank : ∀ char ∈ trailing, isBlank char = true)
    (unmarked : source.toList.head? ≠ some '\ufeff') :
    Tokens.scan? source = some ⟨tokens, blankTrivia trailing⟩ := by
  have whole : Takes ⟨[], [], []⟩ source.toList [] ⟨[], blankTrivia trailing, tokens.reverse⟩ := by
    rw [spelled]
    apply Takes.trans
    · simpa using takes_spelling ends []
    · exact takes_blankTrivia blank (by simp) tokens.reverse
  simp [Tokens.scan?, unmarked, whole.run, reverse_blankTrivia]

/-- A token with blanks before it. -/
abbrev spaced (blanks : List Char) (shape : Shape) (text : String) : Token :=
  ⟨blankTrivia blanks, shape, text⟩

theorem spelling_spaced (blanks : List Char) (shape : Shape) (text : String)
    (others : List Token) :
    spelling (spaced blanks shape text :: others) = blanks ++ (text.toList ++ spelling others) := by
  rw [spelling, List.flatMap_cons, spelling_blankTrivia, List.append_assoc]
  rfl

theorem spelling_append (tokens others : List Token) :
    spelling (tokens ++ others) = spelling tokens ++ spelling others :=
  List.flatMap_append

section Writing

variable {blanks rest : List Char} {text : String}

theorem endsBefore_word (blank : ∀ char ∈ blanks, isBlank char = true)
    (isWord : text.toList.head?.any startsWord = true ∧ text.toList.all continuesWord = true)
    (ends : ∀ char ∈ rest.head?, continuesWord char = false) :
    EndsBefore (spaced blanks .word text) rest := by
  refine ⟨⟨blanks, blank, rfl⟩, .inl ⟨rfl, ?_, ?_, ends⟩⟩
  · simpa [Option.any_eq_true] using isWord.1
  · simpa using isWord.2

theorem endsBefore_mark (blank : ∀ char ∈ blanks, isBlank char = true)
    (isMark : IsMark text.toList rest) : EndsBefore (spaced blanks .mark text) rest :=
  ⟨⟨blanks, blank, rfl⟩, .inr ⟨rfl, isMark⟩⟩

end Writing

end Coupling.Java.Scanner
