import Coupling.Name

/-!
# Parts of names

What stands before the last mark of a text, told by how the text is put
together instead of by how it is searched. A set of names is made by its list.
-/

namespace Coupling

theorem NameSet.ofList_toList (names : NameSet) : NameSet.ofList names.toList = names := by
  apply Std.ExtTreeSet.ext_mem
  intro name
  rw [NameSet.ofList, Std.ExtTreeSet.mem_ofList, List.contains_iff_mem,
    Std.ExtTreeSet.mem_toList]

namespace Name

variable {mark : Char} {text before after : List Char}

theorem dropWhile_of_absent (absent : mark ∉ after) (rest : List Char) :
    (after.reverse ++ rest).dropWhile (· != mark) = rest.dropWhile (· != mark) := by
  apply List.dropWhile_append_of_pos
  intro char charMem
  rw [bne_iff_ne]
  rintro rfl
  exact absent (List.mem_reverse.mp charMem)

theorem beforeLast?_append (absent : mark ∉ after) :
    beforeLast? mark (before ++ mark :: after) = some before := by
  have dropped : (before ++ mark :: after).reverse.dropWhile (· != mark) =
      mark :: before.reverse := by
    rw [List.reverse_append, List.reverse_cons, List.append_assoc, dropWhile_of_absent absent]
    simp
  unfold beforeLast?
  simp only [dropped, List.reverse_reverse]

theorem beforeLast?_of_absent (absent : mark ∉ text) : beforeLast? mark text = none := by
  have dropped : text.reverse.dropWhile (· != mark) = [] := by
    simpa using dropWhile_of_absent absent []
  unfold beforeLast?
  simp only [dropped]

theorem beforeLast?_eq_some_iff :
    beforeLast? mark text = some before ↔
      ∃ after, mark ∉ after ∧ text = before ++ mark :: after := by
  constructor
  · intro found
    by_cases present : mark ∈ text
    · rcases List.eq_append_cons_of_mem (List.mem_reverse.mpr present) with
        ⟨behind, front, shape, absent⟩
      have split : text = front.reverse ++ mark :: behind.reverse := by
        simpa using congrArg List.reverse shape
      rw [← List.mem_reverse] at absent
      rw [split, beforeLast?_append absent, Option.some.injEq] at found
      exact ⟨behind.reverse, absent, found ▸ split⟩
    · simp [beforeLast?_of_absent present] at found
  · rintro ⟨after, absent, rfl⟩
    exact beforeLast?_append absent

/-- The first name is all that stands before the last dollar sign of the second. -/
def Encloses (outer name : SimpleName) : Prop :=
  ∃ inner : String, '$' ∉ inner.toList ∧ name = outer ++ "$" ++ inner

theorem enclosing?_eq_some_iff {name outer : SimpleName} :
    enclosing? name = some outer ↔ Encloses outer name := by
  rw [enclosing?, Option.map_eq_some_iff]
  constructor
  · rintro ⟨before, found, rfl⟩
    rcases beforeLast?_eq_some_iff.mp found with ⟨after, absent, split⟩
    refine ⟨String.ofList after, by simpa using absent, ?_⟩
    apply String.toList_injective
    simpa using split
  · rintro ⟨inner, absent, rfl⟩
    refine ⟨outer.toList, beforeLast?_eq_some_iff.mpr ⟨inner.toList, absent, ?_⟩, String.ofList_toList⟩
    simp

end Name

end Coupling
