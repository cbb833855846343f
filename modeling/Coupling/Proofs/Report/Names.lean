import Coupling.Report.Text

/-!
# The names in a report

Reports put names between marks of their own. What a report says of an analysis
depends on which marks the names do without, so the names that are shown are
listed here, and the marks that a text lacks are told from its parts.
-/

namespace Coupling

/-- The mark does not occur in the text. -/
def Lacks (mark : Char) (text : String) : Prop :=
  mark ∉ text.toList

instance (mark : Char) (text : String) : Decidable (Lacks mark text) :=
  inferInstanceAs (Decidable (mark ∉ text.toList))

namespace Lacks

variable {mark : Char}

@[simp]
theorem append_iff {first second : String} :
    Lacks mark (first ++ second) ↔ Lacks mark first ∧ Lacks mark second := by
  simp [Lacks, not_or]

theorem join_iff {texts : List String} :
    Lacks mark (String.join texts) ↔ ∀ text ∈ texts, Lacks mark text := by
  simp [Lacks, String.toList_join]

theorem intercalate {between : String} {texts : List String} (betweenLacks : Lacks mark between)
    (textsLack : ∀ text ∈ texts, Lacks mark text) : Lacks mark (between.intercalate texts) := by
  induction texts with
  | nil => simp [Lacks]
  | cons first rest ih =>
      have firstLacks := textsLack first List.mem_cons_self
      have restLack := ih fun text textMem => textsLack text (List.mem_cons_of_mem first textMem)
      cases rest with
      | nil => simpa using firstLacks
      | cons second others =>
          rw [String.intercalate_cons_cons, append_iff, append_iff]
          exact ⟨⟨firstLacks, betweenLacks⟩, restLack⟩

theorem rule {other : Char} (different : mark ≠ other) (width : Nat) :
    Lacks mark (Report.rule other width) := by
  simp [Lacks, Report.rule, different]

theorem padLeft {content : String} (noBlank : mark ≠ ' ') (lacks : Lacks mark content)
    (width : Nat) : Lacks mark (Report.padLeft width content) :=
  append_iff.mpr ⟨rule noBlank _, lacks⟩

theorem padRight {content : String} (noBlank : mark ≠ ' ') (lacks : Lacks mark content)
    (width : Nat) : Lacks mark (Report.padRight width content) :=
  append_iff.mpr ⟨lacks, rule noBlank _⟩

theorem repr (noDigit : mark.isDigit = false) (number : Nat) : Lacks mark number.repr := by
  intro markMem
  rw [Nat.toList_repr] at markMem
  have isDigit := Nat.isDigit_of_mem_toDigits (by omega) (by omega) markMem
  simp [isDigit] at noDigit

end Lacks

theorem mem_of_mem_closed {cycle : List String} {name : String}
    (visited : name ∈ cycle ++ cycle.take 1) : name ∈ cycle := by
  rcases List.mem_append.mp visited with member | first
  · exact member
  · exact List.mem_of_mem_take first

/-- The nodes of a graph and the targets of its edges. -/
def Graph.shownNames (graph : Graph) : List String :=
  graph.adjacency.toList.flatMap fun entry => entry.1 :: entry.2.toList

/-- The names that the report on packages shows. -/
def PackageAnalysis.shownNames (analysis : PackageAnalysis) : List String :=
  analysis.graph.shownNames ++ analysis.cycles.flatten

/-- The names that the report on classes shows. -/
def ClassAnalysis.shownNames (analysis : ClassAnalysis) : List String :=
  analysis.graph.shownNames ++ analysis.cycles.flatten ++
    analysis.collisions.toList.flatMap fun entry => entry.1 :: entry.2

/-- The names and paths that the report on the methods of a class shows. -/
def MetricsOutcome.shownNames : MetricsOutcome → List String
  | .found source metrics => source.text :: metrics.className :: metrics.methods.map (·.name)
  | .sourceNotFound className => [className]
  | .noClassDeclaration className source => [className, source.text]

end Coupling
