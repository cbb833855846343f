import Coupling.Proofs.Report.Names

/-!
# Colour adds only control sequences

A control sequence goes from `ESC [` to the next `m`. A coloured report has one
before each text in a style and one after it. Taking them out gives the report
without colour, blanks that align the columns included, since a number is filled
up to its width before it gets a style.

No text in a report starts a control sequence by itself unless a name or a path
in it does.
-/

namespace Coupling.Report

/-- The characters that belong to no control sequence. `inCode` says that one has started. What
starts like one and never ends is kept. -/
def eraseCodes (inCode : Bool) : List Char → List Char
  | [] => []
  | first :: rest =>
    if inCode then eraseCodes (first != 'm') rest
    else if first == '\x1b' && rest.head? == some '[' && rest.contains 'm' then
      eraseCodes true rest
    else first :: eraseCodes false rest

/-- The text without its control sequences. -/
def withoutCodes (text : String) : String :=
  String.ofList (eraseCodes false text.toList)

theorem eraseCodes_append {text : List Char} (lacks : '\x1b' ∉ text) (rest : List Char) :
    eraseCodes false (text ++ rest) = text ++ eraseCodes false rest := by
  induction text with
  | nil => rfl
  | cons first others ih =>
      rw [List.mem_cons, not_or] at lacks
      have different : first ≠ '\x1b' := Ne.symm lacks.1
      simp [eraseCodes, different, ih lacks.2]

theorem eraseCodes_parameters {parameters : List Char} (endless : 'm' ∉ parameters)
    (rest : List Char) :
    eraseCodes true (parameters ++ 'm' :: rest) = eraseCodes false rest := by
  induction parameters with
  | nil => rfl
  | cons first others ih =>
      rw [List.mem_cons, not_or] at endless
      have different : (first != 'm') = true := bne_iff_ne.mpr (Ne.symm endless.1)
      simp [eraseCodes, different, ih endless.2]

theorem eraseCodes_escapeCode {parameters : String} (endless : Lacks 'm' parameters)
    (rest : List Char) :
    eraseCodes false ((escapeCode parameters).toList ++ rest) = eraseCodes false rest := by
  have spelled : (escapeCode parameters).toList ++ rest =
      '\x1b' :: '[' :: (parameters.toList ++ 'm' :: rest) := by
    simp [escapeCode]
  rw [spelled]
  simpa [eraseCodes] using eraseCodes_parameters endless rest

theorem endless_parameters {style : Style} {parameters : String}
    (switched : style.parameters? = some parameters) : Lacks 'm' parameters := by
  cases style <;> simp only [Style.parameters?, Option.some.injEq, reduceCtorEq] at switched <;>
    subst switched <;> decide

theorem eraseCodes_span {span : Span} (lacks : Lacks '\x1b' span.text) (rest : List Char) :
    eraseCodes false ((span.render true).toList ++ rest) =
      (span.render false).toList ++ eraseCodes false rest := by
  cases switched : span.style.parameters? with
  | none => simpa [Span.render, switched] using eraseCodes_append lacks rest
  | some parameters =>
      simp only [Span.render, switched, String.toList_append, List.append_assoc]
      rw [eraseCodes_escapeCode (endless_parameters switched), eraseCodes_append lacks,
        eraseCodes_escapeCode (by decide)]

/-- No text of the report starts a control sequence by itself. -/
def IsBare (report : Report) : Prop :=
  ∀ span ∈ report, Lacks '\x1b' span.text

theorem IsBare.withoutCodes_render {report : Report} (bare : report.IsBare) :
    withoutCodes (report.render true) = report.render false := by
  have erased : eraseCodes false (report.render true).toList = (report.render false).toList := by
    induction report with
    | nil => rfl
    | cons span rest ih =>
        have spanLacks := bare span List.mem_cons_self
        have restErased := ih fun other otherMem => bare other (List.mem_cons_of_mem span otherMem)
        simp only [render, List.map_cons, String.join_cons, String.toList_append] at restErased ⊢
        rw [eraseCodes_span spanLacks, restErased]
  rw [withoutCodes, erased, String.ofList_toList]

@[simp]
theorem isBare_append {first second : Report} :
    IsBare (first ++ second) ↔ first.IsBare ∧ second.IsBare := by
  simp [IsBare, or_imp, forall_and]

@[simp]
theorem isBare_text {content : String} : IsBare (text content) ↔ Lacks '\x1b' content := by
  simp [IsBare, text]

@[simp]
theorem isBare_styled {style : Style} {content : String} :
    IsBare (styled style content) ↔ Lacks '\x1b' content := by
  simp [IsBare, styled]

theorem isBare_header {title : String} (lacks : Lacks '\x1b' title) : (header title).IsBare := by
  simp +decide [header, lacks]

theorem lacks_nodeLine {node : String} {targets : List String} (nodeLacks : Lacks '\x1b' node)
    (targetsLack : ∀ target ∈ targets, Lacks '\x1b' target) :
    Lacks '\x1b' (nodeLine node targets) := by
  have joined : Lacks '\x1b' (", ".intercalate targets) :=
    Lacks.intercalate (by decide) targetsLack
  unfold nodeLine
  split <;> simp +decide [nodeLacks, joined]

theorem isBare_graph {shown : Graph} (lack : ∀ name ∈ shown.shownNames, Lacks '\x1b' name) :
    (graph shown).IsBare := by
  rw [graph, isBare_append, isBare_text, Lacks.join_iff]
  refine ⟨by simp +decide, ?_⟩
  intro line lineMem
  rcases List.mem_map.mp lineMem with ⟨entry, entryMem, rfl⟩
  have entryLacks : ∀ name ∈ entry.1 :: entry.2.toList, Lacks '\x1b' name := by
    intro name nameMem
    exact lack name (List.mem_flatMap.mpr ⟨entry, entryMem, nameMem⟩)
  rw [List.forall_mem_cons] at entryLacks
  exact lacks_nodeLine entryLacks.1 entryLacks.2

theorem lacks_cyclePath {cycle : List String} (lack : ∀ name ∈ cycle, Lacks '\x1b' name) :
    Lacks '\x1b' (cyclePath cycle) := by
  apply Lacks.intercalate (by decide)
  intro name visited
  exact lack name (mem_of_mem_closed visited)

theorem lacks_numbered {lines : List String} (lack : ∀ line ∈ lines, Lacks '\x1b' line) :
    Lacks '\x1b' (numbered lines) := by
  rw [numbered, Lacks.join_iff]
  intro printed printedMem
  rcases List.mem_map.mp printedMem with ⟨entry, entryMem, rfl⟩
  have lineMem : entry.1 ∈ lines := List.fst_mem_of_mem_zipIdx entryMem
  simp +decide [Lacks.repr, lack entry.1 lineMem]

theorem isBare_cycles {found : List (List String)}
    (lack : ∀ name ∈ found.flatten, Lacks '\x1b' name) : (cycles found).IsBare := by
  have paths : ∀ path ∈ found.map cyclePath, Lacks '\x1b' path := by
    intro path pathMem
    rcases List.mem_map.mp pathMem with ⟨cycle, cycleMem, rfl⟩
    apply lacks_cyclePath
    intro name nameMem
    exact lack name (List.mem_flatten.mpr ⟨cycle, cycleMem, nameMem⟩)
  unfold cycles
  split
  · simp +decide
  · simp +decide [Lacks.repr, lacks_numbered paths]

theorem isBare_packages {analysis : PackageAnalysis}
    (lack : ∀ name ∈ analysis.shownNames, Lacks '\x1b' name) : (packages analysis).IsBare := by
  rw [PackageAnalysis.shownNames, List.forall_mem_append] at lack
  simp +decide [packages, isBare_header, Lacks.repr, isBare_graph lack.1, isBare_cycles lack.2]

theorem isBare_collisions {found : Std.ExtTreeMap SimpleName (List ClassName)}
    (lack : ∀ name ∈ found.toList.flatMap fun entry => entry.1 :: entry.2, Lacks '\x1b' name) :
    (collisions found).IsBare := by
  unfold collisions
  split
  · simp [IsBare]
  · rw [isBare_append, isBare_text, Lacks.join_iff]
    refine ⟨by simp +decide, ?_⟩
    intro line lineMem
    rcases List.mem_map.mp lineMem with ⟨entry, entryMem, rfl⟩
    have entryLacks : ∀ name ∈ entry.1 :: entry.2, Lacks '\x1b' name := by
      intro name nameMem
      exact lack name (List.mem_flatMap.mpr ⟨entry, entryMem, nameMem⟩)
    rw [List.forall_mem_cons] at entryLacks
    have joined : Lacks '\x1b' (", ".intercalate entry.2) :=
      Lacks.intercalate (by decide) entryLacks.2
    simp +decide [collisionLine, entryLacks.1, joined]

theorem isBare_classes {analysis : ClassAnalysis}
    (lack : ∀ name ∈ analysis.shownNames, Lacks '\x1b' name) : (classes analysis).IsBare := by
  rw [ClassAnalysis.shownNames, List.forall_mem_append, List.forall_mem_append] at lack
  simp +decide [classes, isBare_header, Lacks.repr, isBare_collisions lack.2,
    isBare_graph lack.1.1, isBare_cycles lack.1.2]

theorem isBare_methodLine {method : MethodMetrics} (lacks : Lacks '\x1b' method.name) :
    (methodLine method).IsBare := by
  simp +decide [methodLine, Lacks.padLeft, Lacks.padRight, Lacks.repr, lacks]

theorem mem_of_foldl_eq_some {choose : Option MethodMetrics → MethodMetrics → Option MethodMetrics}
    {methods : List MethodMetrics} {best : Option MethodMetrics} {method : MethodMetrics}
    (chosen : methods.foldl choose best = some method)
    (chooses : ∀ best next, choose best next = best ∨ choose best next = some next) :
    best = some method ∨ method ∈ methods := by
  induction methods generalizing best with
  | nil => exact Or.inl chosen
  | cons next rest ih =>
      rcases ih chosen with now | later
      · rcases chooses best next with kept | taken
        · exact Or.inl (kept ▸ now)
        · rw [taken, Option.some.injEq] at now
          exact Or.inr (now ▸ List.mem_cons_self)
      · exact Or.inr (List.mem_cons_of_mem next later)

theorem mem_of_mostComplex? {metrics : ClassMetrics} {method : MethodMetrics}
    (found : metrics.mostComplex? = some method) : method ∈ metrics.methods := by
  rw [ClassMetrics.mostComplex?] at found
  refine (mem_of_foldl_eq_some found ?_).resolve_left (by simp)
  intro best next
  cases best with
  | none => exact Or.inr rfl
  | some leader =>
      by_cases larger : leader.complexity ≤ next.complexity <;> simp [larger]

theorem lacks_mostComplexLine {worst : Option MethodMetrics}
    (lack : ∀ method ∈ worst, Lacks '\x1b' method.name) : Lacks '\x1b' (mostComplexLine worst) := by
  unfold mostComplexLine
  split
  · next method => simp +decide [Lacks.repr, lack method rfl]
  · decide

theorem isBare_methodTable {metrics : ClassMetrics}
    (lack : ∀ method ∈ metrics.methods, Lacks '\x1b' method.name) :
    (methodTable metrics).IsBare := by
  have worst : Lacks '\x1b' (mostComplexLine metrics.mostComplex?) :=
    lacks_mostComplexLine fun method found => lack method (mem_of_mostComplex? found)
  have lines : IsBare (metrics.methods.flatMap methodLine) := by
    intro span spanMem
    rcases List.mem_flatMap.mp spanMem with ⟨method, methodMem, lineMem⟩
    exact isBare_methodLine (lack method methodMem) span lineMem
  have dashes : Lacks '\x1b' (rule '-' 61) := Lacks.rule (by decide) 61
  rw [methodTable, isBare_append, isBare_text]
  constructor
  · simp only [Lacks.append_iff, dashes]
    decide
  · split
    · simp +decide
    · simp +decide [lines, worst, Lacks.repr]

theorem isBare_metrics {outcome : MetricsOutcome}
    (lack : ∀ name ∈ outcome.shownNames, Lacks '\x1b' name) : (metrics outcome).IsBare := by
  cases outcome with
  | found source measured =>
      simp only [MetricsOutcome.shownNames, List.forall_mem_cons, List.forall_mem_map] at lack
      rcases lack with ⟨sourceLacks, classLacks, methodsLack⟩
      simp +decide [metrics, isBare_header, sourceLacks, classLacks, isBare_methodTable methodsLack]
  | sourceNotFound className =>
      simp +decide [metrics, lack className (by simp [MetricsOutcome.shownNames])]
  | noClassDeclaration className source =>
      simp +decide [metrics, lack className (by simp [MetricsOutcome.shownNames]),
        lack source.text (by simp [MetricsOutcome.shownNames])]

/-- Without its control sequences a coloured report is the report without colour, for every
analysis and every outcome whose names and paths have no control sequences. -/
theorem colour_adds_only_codes :
    (∀ analysis : PackageAnalysis, (∀ name ∈ analysis.shownNames, Lacks '\x1b' name) →
      withoutCodes ((packages analysis).render true) = (packages analysis).render false) ∧
    (∀ analysis : ClassAnalysis, (∀ name ∈ analysis.shownNames, Lacks '\x1b' name) →
      withoutCodes ((classes analysis).render true) = (classes analysis).render false) ∧
    (∀ outcome : MetricsOutcome, (∀ name ∈ outcome.shownNames, Lacks '\x1b' name) →
      withoutCodes ((metrics outcome).render true) = (metrics outcome).render false) := by
  refine ⟨?_, ?_, ?_⟩
  · intro analysis lack
    exact (isBare_packages lack).withoutCodes_render
  · intro analysis lack
    exact (isBare_classes lack).withoutCodes_render
  · intro outcome lack
    exact (isBare_metrics lack).withoutCodes_render

/-- Two packages in a cycle. -/
def mutualPackages : PackageAnalysis :=
  ⟨["a", "b"], 2, .ofEdges [("a", "b"), ("b", "a")], [["b", "a"]]⟩

/-- Two classes of one simple name. -/
def twinClasses : ClassAnalysis :=
  ⟨2, .addNode ∅ "Util", [], .ofList [("Util", ["a.Util", "b.Util"])]⟩

/-- A method that stands out. -/
def complexMethod : MetricsOutcome :=
  .found ⟨"A.java"⟩ ⟨"A", [⟨"run", 1, 2, 11⟩]⟩

theorem colour_of_small_reports :
    (∀ name ∈ mutualPackages.shownNames, Lacks '\x1b' name) ∧
    (∀ name ∈ twinClasses.shownNames, Lacks '\x1b' name) ∧
    (∀ name ∈ complexMethod.shownNames, Lacks '\x1b' name) ∧
    withoutCodes ((packages mutualPackages).render true) = (packages mutualPackages).render false ∧
    withoutCodes ((classes twinClasses).render true) = (classes twinClasses).render false ∧
    withoutCodes ((metrics complexMethod).render true) = (metrics complexMethod).render false ∧
    (metrics complexMethod).render true ≠ (metrics complexMethod).render false := by
  have packageNames : ∀ name ∈ mutualPackages.shownNames, Lacks '\x1b' name := by decide +kernel
  have classNames : ∀ name ∈ twinClasses.shownNames, Lacks '\x1b' name := by decide +kernel
  have methodNames : ∀ name ∈ complexMethod.shownNames, Lacks '\x1b' name := by decide +kernel
  exact ⟨packageNames, classNames, methodNames, colour_adds_only_codes.1 _ packageNames,
    colour_adds_only_codes.2.1 _ classNames, colour_adds_only_codes.2.2 _ methodNames,
    by decide +kernel⟩

end Coupling.Report
