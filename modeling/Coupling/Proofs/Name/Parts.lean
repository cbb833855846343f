import Mathlib.Data.List.Basic
import Coupling.Name
import Coupling.Proofs.Path
import Coupling.Proofs.Text.Offsets

/-!
# Parts of names

The parts of a name are the texts between its dots. A package lies within
another one exactly if its parts start with the parts of the other one. The
parts may be empty, as they are beside a dot that stands first, last or next to
another dot, and the empty name has one empty part.

Splitting loses nothing, so names with the same parts are the same. Containment
is therefore an order on names.

It can be told from the bytes of two names: the one is a proper beginning of the
other, and the byte that follows it there is a dot.
-/

namespace Coupling.Name

open Utf8 (encode byteAt? Starts lt_length_of_byteAt?)

variable {mark : Char} {text outer : List Char}

/-- The texts between the dots of a name. -/
def parts (name : String) : List String :=
  (name.toList.splitOn '.').map String.ofList

theorem splitOn_injective (mark : Char) : Function.Injective (List.splitOn mark) := by
  intro left right same
  have joined := congrArg [mark].intercalate same
  simpa only [List.intercalate_splitOn] using joined

theorem parts_injective : Function.Injective parts := by
  intro left right same
  apply String.toList_injective
  apply splitOn_injective '.'
  exact List.map_injective_iff.mpr (fun _ _ => String.ofList_injective) same

/-- A text starts with the pieces of another one if it is that text or goes on with a mark after
it. -/
theorem splitOn_prefix_iff :
    outer.splitOn mark <+: text.splitOn mark ↔ text = outer ∨ outer ++ [mark] <+: text := by
  constructor
  · rintro ⟨more, split⟩
    by_cases ended : more = []
    · left
      apply splitOn_injective mark
      simpa [ended] using split.symm
    · right
      have whole : ∀ piece ∈ more, mark ∉ piece := by
        intro piece pieceMem
        have inText : piece ∈ text.splitOn mark := by simp [← split, pieceMem]
        exact Path.not_mem_of_mem_splitOn inText
      have text_eq : text = outer ++ mark :: [mark].intercalate more := by
        apply splitOn_injective mark
        simp [List.splitOn_append_cons_self, List.splitOn_intercalate mark whole ended, split]
      exact ⟨[mark].intercalate more, by simp [text_eq]⟩
  · rintro (rfl | ⟨rest, rfl⟩)
    · exact List.prefix_refl _
    · simp [List.splitOn_append_cons_self]

theorem isWithin_iff {package outer : PackageName} :
    isWithin package outer = true ↔ parts outer <+: parts package := by
  have pieces : parts outer <+: parts package ↔
      outer.toList.splitOn '.' <+: package.toList.splitOn '.' :=
    List.prefix_map_iff_of_injective fun _ _ => String.ofList_injective
  simp [pieces, splitOn_prefix_iff, isWithin, String.toList_inj]

/-- A name goes on with a dot after another one iff it is longer, starts with it and has a dot as
the byte at its length. -/
theorem dot_prefix_iff_byteAt? {package outer : PackageName} :
    outer.toList ++ ['.'] <+: package.toList ↔
      (encode outer).length < (encode package).length ∧ startsWith package outer = true ∧
        byteAt? package (encode outer).length = some '.' := by
  have byte_iff {rest : List Char} (split : package.toList = outer.toList ++ rest) :
      byteAt? package (encode outer).length = some '.' ↔ rest.head? = some '.' := by
    have starts : Starts package (encode outer).length rest := ⟨outer.toList, split, rfl⟩
    exact starts.byteAt?_eq_some_iff (by decide)
  rw [startsWith, List.isPrefixOf_iff_prefix]
  constructor
  · rintro ⟨rest, split⟩
    have onward : package.toList = outer.toList ++ '.' :: rest := by simp [← split]
    have dot := (byte_iff onward).mpr rfl
    exact ⟨lt_length_of_byteAt? dot, ⟨_, onward.symm⟩, dot⟩
  · rintro ⟨_, ⟨rest, split⟩, dot⟩
    rcases List.head?_eq_some_iff.mp ((byte_iff split.symm).mp dot) with ⟨more, rfl⟩
    exact ⟨more, by simp [← split]⟩

theorem isWithin_iff_byteAt? {package outer : PackageName} :
    isWithin package outer = true ↔ package = outer ∨
      (encode outer).length < (encode package).length ∧ startsWith package outer = true ∧
        byteAt? package (encode outer).length = some '.' := by
  rw [← dot_prefix_iff_byteAt?]
  simp [isWithin]

/-- A package lies within another one iff its parts start with the parts of the other one, and iff
it is the other one or goes on with a dot after it. Hence each package lies within itself,
containment passes on, and no two packages lie within each other. -/
theorem package_nesting_by_parts :
    (∀ package outer : PackageName,
      isWithin package outer = true ↔ parts outer <+: parts package) ∧
    (∀ package outer : PackageName,
      isWithin package outer = true ↔ package = outer ∨
        (encode outer).length < (encode package).length ∧ startsWith package outer = true ∧
          byteAt? package (encode outer).length = some '.') ∧
    (∀ package : PackageName, isWithin package package = true) ∧
    (∀ inner middle outer : PackageName, isWithin inner middle = true →
      isWithin middle outer = true → isWithin inner outer = true) ∧
    ∀ left right : PackageName, isWithin left right = true → isWithin right left = true →
      left = right := by
  refine ⟨fun _ _ => isWithin_iff, fun _ _ => isWithin_iff_byteAt?, ?_, ?_, ?_⟩
  · intro package
    exact isWithin_iff.mpr (List.prefix_refl _)
  · intro inner middle outer inMiddle inOuter
    rw [isWithin_iff] at inMiddle inOuter ⊢
    exact inOuter.trans inMiddle
  · intro left right inRight inLeft
    rw [isWithin_iff] at inRight inLeft
    apply parts_injective
    exact inLeft.eq_of_length_le inRight.length_le

-- Dots that stand first, last or twice set off empty parts.
example : isWithin ".a" "" = true ∧ isWithin "a..b" "a." = true ∧ isWithin "a" "" = false ∧
    isWithin "a.b" "a." = false := by decide

end Coupling.Name
