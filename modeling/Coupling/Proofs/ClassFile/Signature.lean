import Coupling.ClassFile.Signature
import Coupling.Proofs.ClassFile.SignatureGrammar
import Mathlib.Logic.Relation

/-!
# The class types of a signature

The scan of a signature finds exactly the names of the class types that occur
in it. A type is scanned as a whole: wherever its text stands, the scan gets
from its start to the text after it, with the brackets around it still open and
with the names in it found.

In the section of type parameters the scan looks for the next colon after each
bound, so that the name of the next type parameter is not taken for a type.
-/

namespace Coupling.ClassFile

namespace SignatureScan

variable {scan next last : SignatureScan}

/-- The scan gets from one state to another. -/
def Reaches : SignatureScan → SignatureScan → Prop :=
  Relation.ReflTransGen fun scan next => scan.rest ≠ [] ∧ scan.step = next

theorem length_fromColon_le (text : List Char) : (fromColon text).length ≤ text.length :=
  (List.dropWhile_suffix _).length_le

theorem length_afterType_le (scan : SignatureScan) (text : List Char) :
    (scan.afterType text).length ≤ text.length := by
  fun_cases afterType
  · exact length_fromColon_le _
  · exact Nat.le_refl _
  · exact Nat.le_refl _

theorem length_rest_step (more : scan.rest ≠ []) :
    scan.step.rest.length < scan.rest.length := by
  have dropped (holds : Char → Bool) (text : List Char) :
      (text.dropWhile holds).length < text.length + 1 :=
    Nat.lt_succ_of_le (List.dropWhile_suffix _).length_le
  fun_cases step with
  | case1 empty => exact absurd empty more
  | case2 rest here => simp [takeName, here, dropped]
  | case3 rest here => simp [takeName, here, dropped]
  | case4 rest here => simp [here, dropped]
  | case5 rest here => simp [here]
  | case6 rest here outer enclosing around => simp [here]
  | case7 rest here around => simp [here]
  | case8 rest here => simp [here, Nat.lt_succ_of_le (length_afterType_le scan rest)]
  | case9 c rest _ _ _ _ _ _ here => simp [here]

theorem run_of_reaches {fuel : Nat} (reaches : Reaches scan last) (ended : last.rest = [])
    (enough : scan.rest.length ≤ fuel) : scan.run fuel = last := by
  induction reaches using Relation.ReflTransGen.head_induction_on generalizing fuel with
  | refl => cases fuel <;> simp [run, ended]
  | head stepped _ ih =>
      obtain ⟨more, rfl⟩ := stepped
      have shorter := length_rest_step more
      obtain ⟨fuel, rfl⟩ : ∃ less, fuel = less + 1 := ⟨fuel - 1, by omega⟩
      rw [run, if_neg (by simpa using more)]
      exact ih (by omega)

theorem length_rest_start_le (text : List Char) : (start text).rest.length ≤ text.length := by
  fun_cases start
  · exact Nat.le_succ_of_le (length_fromColon_le _)
  · exact Nat.le_refl _

theorem found_start (text : List Char) : (start text).found = [] := by
  fun_cases start <;> rfl

/-- The scan gets from one state to another and finds exactly the given class types on its way. -/
structure Finds (scan : SignatureScan) (names : List (List Char)) (next : SignatureScan) :
    Prop where
  reaches : Reaches scan next
  found_iff : ∀ name, name ∈ next.found ↔ name ∈ names ∨ name ∈ scan.found

namespace Finds

variable {names more : List (List Char)}

protected theorem refl (scan : SignatureScan) : Finds scan [] scan :=
  ⟨.refl, by simp⟩

theorem step (nonempty : scan.rest ≠ []) (stepped : scan.step = next)
    (found_iff : ∀ name, name ∈ next.found ↔ name ∈ names ∨ name ∈ scan.found) :
    Finds scan names next :=
  ⟨.single ⟨nonempty, stepped⟩, found_iff⟩

theorem trans (first : Finds scan names next) (second : Finds next more last) :
    Finds scan (names ++ more) last := by
  refine ⟨Relation.ReflTransGen.trans first.reaches second.reaches, ?_⟩
  intro name
  rw [second.found_iff, first.found_iff, List.mem_append, or_left_comm, or_assoc]

theorem congr (finds : Finds scan names next) (same : ∀ name, name ∈ names ↔ name ∈ more) :
    Finds scan more next :=
  ⟨finds.reaches, by simpa [← same] using finds.found_iff⟩

/-- The names of the classes nested in a class are found after those of its type arguments. -/
theorem then_inner {middle : SignatureScan} {name : List Char}
    {within inArguments inNested : List (List Char)} (named : Finds scan [name] next)
    (argued : Finds next inArguments middle) (inner : Finds middle (within ++ inNested) last) :
    Finds scan (name :: within ++ (inArguments ++ inNested)) last := by
  apply ((named.trans argued).trans inner).congr
  simp [or_left_comm]

end Finds

variable {inParameters : Bool} {current : List Char} {enclosing found : List (List Char)}

/-- A character that stands for itself has no effect. -/
theorem step_of_plain {c : Char} {rest : List Char} (plain : c ∉ ['L', '.', 'T', '<', '>', ';'])
    (here : scan.rest = c :: rest) : scan.step = { scan with rest } := by
  rcases scan with ⟨text, _, _, _, _⟩
  obtain rfl : text = c :: rest := here
  simp only [List.mem_cons, List.not_mem_nil, or_false, not_or] at plain
  unfold step
  split <;> simp_all

theorem finds_skip {c : Char} (plain : c ∉ ['L', '.', 'T', '<', '>', ';']) (rest : List Char) :
    Finds ⟨c :: rest, inParameters, current, enclosing, found⟩ []
      ⟨rest, inParameters, current, enclosing, found⟩ :=
  .step (by simp) (step_of_plain plain rfl) (by simp)

/-- The text goes on with a character that ends a class name. -/
def Ending (text : List Char) : Prop :=
  ∃ c rest, text = c :: rest ∧ endsName c

theorem takeName_append {name rest : List Char} (outer : List Char)
    (inside : ∀ c ∈ name, endsName c = false) (ending : Ending rest) (scan : SignatureScan) :
    scan.takeName outer (name ++ rest) =
      { scan with rest, current := outer ++ name, found := (outer ++ name) :: scan.found } := by
  obtain ⟨c, rest, rfl, ends⟩ := ending
  have within : ∀ c ∈ name, (!endsName c) = true := by simpa using inside
  simp [takeName, List.takeWhile_append_of_pos within, List.dropWhile_append_of_pos within, ends]

/-- What is left to scan once a type has ended. -/
def resume (inParameters : Bool) (enclosing : List (List Char)) (rest : List Char) : List Char :=
  afterType ⟨rest, inParameters, [], enclosing, []⟩ rest

theorem finds_semicolon (rest : List Char) :
    Finds ⟨';' :: rest, inParameters, current, enclosing, found⟩ []
      ⟨resume inParameters enclosing rest, inParameters, current, enclosing, found⟩ :=
  .step (by simp) rfl (by simp)

/-- The names of class types in internal form. -/
def internalNames (types : List ClassType) : List (List Char) :=
  types.flatMap fun type => type.namesWith '/'

theorem internalNames_append (left right : List ClassType) :
    internalNames (left ++ right) = internalNames left ++ internalNames right :=
  List.flatMap_append

/-- While the same brackets are open, the scan gets from one text to another, whatever class type it
is in before, and finds exactly the given class types. -/
def Passes (inParameters : Bool) (enclosing : List (List Char)) (text : List Char)
    (names : List (List Char)) (rest : List Char) : Prop :=
  ∀ current found, ∃ last found',
    Finds ⟨text, inParameters, current, enclosing, found⟩ names
      ⟨rest, inParameters, last, enclosing, found'⟩

namespace Passes

variable {text middle rest : List Char} {names more : List (List Char)}

protected theorem refl (text : List Char) : Passes inParameters enclosing text [] text :=
  fun current found => ⟨current, found, .refl _⟩

theorem trans (first : Passes inParameters enclosing text names middle)
    (second : Passes inParameters enclosing middle more rest) :
    Passes inParameters enclosing text (names ++ more) rest := by
  intro current found
  obtain ⟨between, found', finds⟩ := first current found
  obtain ⟨last, found'', findsMore⟩ := second between found'
  exact ⟨last, found'', finds.trans findsMore⟩

theorem skip {c : Char} (plain : c ∉ ['L', '.', 'T', '<', '>', ';'])
    (passes : Passes inParameters enclosing text names rest) :
    Passes inParameters enclosing (c :: text) names rest := by
  intro current found
  obtain ⟨last, found', finds⟩ := passes current found
  exact ⟨last, found', (finds_skip plain text).trans finds⟩

/-- Types one after another are passed if each of them is. -/
theorem flatMap {ι : Type} {items : List ι} {textOf : ι → List Char}
    {typesOf : ι → List ClassType}
    (each : ∀ item ∈ items, ∀ rest,
      Passes inParameters enclosing (resume inParameters enclosing (textOf item ++ rest))
        (internalNames (typesOf item)) (resume inParameters enclosing rest))
    (rest : List Char) :
    Passes inParameters enclosing (resume inParameters enclosing (items.flatMap textOf ++ rest))
      (internalNames (items.flatMap typesOf)) (resume inParameters enclosing rest) := by
  induction items with
  | nil => exact .refl _
  | cons item items ih =>
      rw [List.flatMap_cons, List.append_assoc, List.flatMap_cons, internalNames_append]
      apply (each item List.mem_cons_self _).trans
      exact ih fun other otherMem => each other (List.mem_cons_of_mem _ otherMem)

end Passes

/-- A type can end here with no type parameter after it. -/
def Inside (inParameters : Bool) (enclosing : List (List Char)) : Prop :=
  inParameters = false ∨ enclosing ≠ []

theorem Inside.resume_eq (inside : Inside inParameters enclosing) (rest : List Char) :
    resume inParameters enclosing rest = rest := by
  cases rest with
  | nil => rfl
  | cons c rest =>
      rw [resume, afterType, if_neg]
      obtain rfl | nested := inside
      · simp
      · simp [nested]

theorem passes_variable (name : Identifier) (rest : List Char) :
    Passes inParameters enclosing (variableText name ++ rest) []
      (resume inParameters enclosing rest) := by
  intro current found
  have inside : ∀ c ∈ name.chars, (c != ';') = true := by
    intro c mem
    simpa using Identifier.ne_of_mem mem (by decide)
  have skipped : Finds ⟨variableText name ++ rest, inParameters, current, enclosing, found⟩ []
      ⟨';' :: rest, inParameters, current, enclosing, found⟩ := by
    refine .step (by simp [variableText]) ?_ (by simp)
    simp [variableText, step, List.dropWhile_append_of_pos inside]
  exact ⟨current, found, skipped.trans (finds_semicolon rest)⟩

theorem endsName_of_mem_chars (name : Identifier) : ∀ c ∈ name.chars, endsName c = false := by
  intro c mem
  have unreserved := name.unreserved c mem
  simp only [reserved, List.mem_cons, not_or] at unreserved
  simp [endsName, unreserved]

theorem endsName_of_mem_packageText (package : List Identifier) :
    ∀ c ∈ packageText '/' package, endsName c = false := by
  intro c mem
  simp only [packageText, List.mem_flatMap, List.mem_append, List.mem_singleton] at mem
  obtain ⟨identifier, _, inIdentifier | rfl⟩ := mem
  · exact endsName_of_mem_chars identifier c inIdentifier
  · rfl

theorem finds_outermost (package : List Identifier) (name : Identifier) {rest : List Char}
    (ending : Ending rest) :
    ∃ found', Finds
      ⟨'L' :: (packageText '/' package ++ name.chars ++ rest), inParameters, current, enclosing,
        found⟩
      [packageText '/' package ++ name.chars]
      ⟨rest, inParameters, packageText '/' package ++ name.chars, enclosing, found'⟩ := by
  have inside : ∀ c ∈ packageText '/' package ++ name.chars, endsName c = false := by
    intro c mem
    obtain inPackage | inName := List.mem_append.mp mem
    · exact endsName_of_mem_packageText package c inPackage
    · exact endsName_of_mem_chars name c inName
  refine ⟨_, .step (by simp) (takeName_append [] inside ending _) (by simp)⟩

theorem finds_inner (name : Identifier) {rest : List Char} (ending : Ending rest) :
    ∃ found', Finds ⟨'.' :: (name.chars ++ rest), inParameters, current, enclosing, found⟩
      [current ++ '$' :: name.chars]
      ⟨rest, inParameters, current ++ '$' :: name.chars, enclosing, found'⟩ := by
  have taken := takeName_append (current ++ ['$']) (endsName_of_mem_chars name) ending
    ⟨'.' :: (name.chars ++ rest), inParameters, current, enclosing, found⟩
  rw [List.append_assoc, List.singleton_append] at taken
  exact ⟨_, .step (by simp) taken (by simp)⟩

/-- Type arguments are scanned with the class type around them set aside. -/
theorem finds_bracketed {inner : List Char} {names : List (List Char)}
    (passes : ∀ rest, Passes inParameters (current :: enclosing) (inner ++ rest) names rest)
    (rest : List Char) :
    ∃ found', Finds
      ⟨'<' :: (inner ++ ['>']) ++ rest, inParameters, current, enclosing, found⟩ names
      ⟨rest, inParameters, current, enclosing, found'⟩ := by
  obtain ⟨last, found', finds⟩ := passes ('>' :: rest) [] found
  have opened : Finds ⟨'<' :: (inner ++ ['>']) ++ rest, inParameters, current, enclosing, found⟩ []
      ⟨inner ++ '>' :: rest, inParameters, [], current :: enclosing, found⟩ :=
    .step (by simp) (by simp [step]) (by simp)
  have closed : Finds ⟨'>' :: rest, inParameters, last, current :: enclosing, found'⟩ []
      ⟨rest, inParameters, current, enclosing, found'⟩ :=
    .step (by simp) rfl (by simp)
  have whole := (opened.trans finds).trans closed
  rw [List.nil_append, List.append_nil] at whole
  exact ⟨found', whole⟩

theorem ending_nested (arguments : List TypeArgument) (nested : List SimpleClass)
    (rest : List Char) :
    Ending (bracketedText arguments ++ (nestedText nested ++ ';' :: rest)) := by
  cases arguments with
  | cons argument arguments => exact ⟨'<', _, rfl, rfl⟩
  | nil =>
      cases nested with
      | nil => exact ⟨';', rest, rfl, rfl⟩
      | cons inner nested => exact ⟨'.', _, rfl, rfl⟩

mutual

theorem passes_javaType (type : JavaType) (inParameters : Bool) (enclosing : List (List Char))
    (inside : Inside inParameters enclosing) (rest : List Char) :
    Passes inParameters enclosing (type.text ++ rest) (internalNames type.classTypes) rest := by
  cases type with
  | base type =>
      have plain : type.letter ∉ ['L', '.', 'T', '<', '>', ';'] := by cases type <;> decide
      exact (Passes.refl rest).skip plain
  | reference type => exact passes_referenceType type inParameters enclosing inside rest

theorem passes_referenceType (type : ReferenceType) (inParameters : Bool)
    (enclosing : List (List Char)) (inside : Inside inParameters enclosing) (rest : List Char) :
    Passes inParameters enclosing (type.text ++ rest) (internalNames type.classTypes) rest := by
  cases type with
  | classType type =>
      have passes := passes_classType type inParameters enclosing rest
      rwa [inside.resume_eq] at passes
  | typeVariable name =>
      have passes : Passes inParameters enclosing _ _ _ := passes_variable name rest
      rwa [inside.resume_eq] at passes
  | array element =>
      exact (passes_javaType element inParameters enclosing inside rest).skip (by decide)

theorem passes_classType (type : ClassType) (inParameters : Bool) (enclosing : List (List Char))
    (rest : List Char) :
    Passes inParameters enclosing (type.text ++ rest) (internalNames type.classTypes)
      (resume inParameters enclosing rest) := by
  match type with
  | .mk package (.mk name arguments) nested =>
  intro current found
  obtain ⟨found₁, named⟩ := finds_outermost package name (ending_nested arguments nested rest)
  obtain ⟨found₂, argued⟩ := finds_arguments arguments inParameters _ enclosing found₁ _
  obtain ⟨last, found₃, inner⟩ := finds_nested nested inParameters _ enclosing found₂ rest
  have whole := (named.then_inner argued inner).trans (finds_semicolon rest)
  refine ⟨last, found₃, ?_⟩
  simpa [ClassType.text, SimpleClass.text, ClassType.classTypes, SimpleClass.classTypes,
    SimpleClass.name, ClassType.namesWith, internalNames] using whole

theorem finds_arguments (arguments : List TypeArgument) (inParameters : Bool)
    (current : List Char) (enclosing found : List (List Char)) (rest : List Char) :
    ∃ found', Finds ⟨bracketedText arguments ++ rest, inParameters, current, enclosing, found⟩
      (internalNames (argumentsClassTypes arguments))
      ⟨rest, inParameters, current, enclosing, found'⟩ := by
  cases arguments with
  | nil => exact ⟨found, .refl _⟩
  | cons argument arguments =>
      apply finds_bracketed
      intro rest
      have inside : Inside inParameters (current :: enclosing) := .inr (by simp)
      rw [List.append_assoc, argumentsClassTypes, internalNames_append]
      exact (passes_argument argument _ _ inside _).trans (passes_arguments arguments _ _ inside _)

theorem passes_arguments (arguments : List TypeArgument) (inParameters : Bool)
    (enclosing : List (List Char)) (inside : Inside inParameters enclosing) (rest : List Char) :
    Passes inParameters enclosing (argumentsText arguments ++ rest)
      (internalNames (argumentsClassTypes arguments)) rest := by
  cases arguments with
  | nil => exact .refl rest
  | cons argument arguments =>
      rw [argumentsText, List.append_assoc, argumentsClassTypes, internalNames_append]
      exact (passes_argument argument _ _ inside _).trans (passes_arguments arguments _ _ inside _)

theorem passes_argument (argument : TypeArgument) (inParameters : Bool)
    (enclosing : List (List Char)) (inside : Inside inParameters enclosing) (rest : List Char) :
    Passes inParameters enclosing (argument.text ++ rest) (internalNames argument.classTypes)
      rest := by
  cases argument with
  | unbounded => exact (Passes.refl rest).skip (by decide)
  | bounded wildcard type =>
      have passes := passes_referenceType type inParameters enclosing inside rest
      cases wildcard with
      | none => exact passes
      | some wildcard => exact passes.skip (by cases wildcard <;> decide)

theorem finds_nested (nested : List SimpleClass) (inParameters : Bool)
    (current : List Char) (enclosing found : List (List Char)) (rest : List Char) :
    ∃ last found',
      Finds ⟨nestedText nested ++ ';' :: rest, inParameters, current, enclosing, found⟩
        (namesWithin current nested ++ internalNames (nestedClassTypes nested))
        ⟨';' :: rest, inParameters, last, enclosing, found'⟩ := by
  match nested with
  | [] => exact ⟨current, found, .refl _⟩
  | .mk name arguments :: nested =>
  obtain ⟨found₁, named⟩ := finds_inner name (ending_nested arguments nested rest)
  obtain ⟨found₂, argued⟩ := finds_arguments arguments inParameters _ enclosing found₁ _
  obtain ⟨last, found₃, inner⟩ := finds_nested nested inParameters _ enclosing found₂ rest
  refine ⟨last, found₃, ?_⟩
  simpa [nestedText, SimpleClass.text, nestedClassTypes, SimpleClass.classTypes, namesWithin,
    SimpleClass.name, internalNames] using named.then_inner argued inner

end

theorem passes_bound {bound : ReferenceType} (noArray : bound.isArray = false)
    (rest : List Char) :
    Passes inParameters enclosing (bound.text ++ rest) (internalNames bound.classTypes)
      (resume inParameters enclosing rest) := by
  cases bound with
  | classType type => exact passes_classType type inParameters enclosing rest
  | typeVariable name => exact passes_variable name rest
  | array element => cases noArray

theorem fromColon_chars (name : Identifier) (rest : List Char) :
    fromColon (name.chars ++ ':' :: rest) = ':' :: rest := by
  have inside : ∀ c ∈ name.chars, (c != ':') = true := by
    intro c mem
    simpa using Identifier.ne_of_mem mem (by decide)
  simp [fromColon, List.dropWhile_append_of_pos inside]

/-- After a bound the scan goes on with the bounds of the next type parameter. -/
theorem resume_chars (name : Identifier) (rest : List Char) :
    resume true [] (name.chars ++ ':' :: rest) = ':' :: rest := by
  cases chars : name.chars with
  | nil => rfl
  | cons c tail =>
      have mem : c ∈ name.chars := by simp [chars]
      have notColon : c ≠ ':' := Identifier.ne_of_mem mem (by decide)
      have notBracket : c ≠ '>' := Identifier.ne_of_mem mem (by decide)
      have skipped := fromColon_chars name rest
      rw [chars] at skipped
      simpa [resume, afterType, notColon, notBracket] using skipped

theorem passes_interfaceBound {bound : ReferenceType} (noArray : bound.isArray = false)
    (rest : List Char) :
    Passes true [] (resume true [] (':' :: bound.text ++ rest)) (internalNames bound.classTypes)
      (resume true [] rest) :=
  (passes_bound noArray rest).skip (by decide)

theorem passes_bounds {parameter : TypeParameter} (bounded : parameter.Bounded)
    (rest : List Char) :
    Passes true []
      (':' :: (parameter.classBound.toList.flatMap ReferenceType.text ++
        (parameter.interfaceBounds.flatMap (fun bound => ':' :: bound.text) ++ rest)))
      (internalNames parameter.classTypes) (resume true [] rest) := by
  obtain ⟨name, classBound, interfaceBounds⟩ := parameter
  obtain ⟨some_bound, noArray⟩ := bounded
  have interfaces : Passes true []
      (resume true [] (interfaceBounds.flatMap (fun bound => ':' :: bound.text) ++ rest))
      (internalNames (interfaceBounds.flatMap ReferenceType.classTypes)) (resume true [] rest) := by
    apply Passes.flatMap
    intro bound mem
    exact passes_interfaceBound (noArray bound (List.mem_append_right _ mem))
  apply Passes.skip (by decide)
  cases classBound with
  | some bound =>
      have first : bound.isArray = false := noArray bound (by simp [TypeParameter.bounds])
      simpa [TypeParameter.classTypes, TypeParameter.bounds, internalNames_append] using
        (passes_bound first _).trans interfaces
  | none =>
      -- the first interface bound starts with a colon of its own
      obtain _ | ⟨bound, bounds⟩ := interfaceBounds
      · exact absurd rfl some_bound
      · exact interfaces

theorem passes_parameter {parameter : TypeParameter} (bounded : parameter.Bounded)
    (rest : List Char) :
    Passes true [] (resume true [] (parameter.text ++ rest)) (internalNames parameter.classTypes)
      (resume true [] rest) := by
  have passes := passes_bounds bounded rest
  rw [← resume_chars parameter.name] at passes
  simpa [TypeParameter.text] using passes

theorem fromColon_parameter (parameter : TypeParameter) (rest : List Char) :
    fromColon (parameter.text ++ rest) = resume true [] (parameter.text ++ rest) := by
  simp [TypeParameter.text, fromColon_chars, resume_chars]

theorem start_of_unbracketed {text : List Char} (unbracketed : text.head? ≠ some '<') :
    start text = ⟨text, false, [], [], []⟩ := by
  fun_cases start
  · exact absurd rfl unbracketed
  · rfl

/-- The scan goes through the section of type parameters, if there is one, and leaves it. -/
theorem finds_start {parameters : List TypeParameter}
    (bounded : ∀ parameter ∈ parameters, parameter.Bounded) {rest : List Char}
    (unbracketed : rest.head? ≠ some '<') :
    ∃ current found, Finds (start (parametersText parameters ++ rest))
      (internalNames (parameters.flatMap TypeParameter.classTypes))
      ⟨rest, false, current, [], found⟩ := by
  cases parameters with
  | nil =>
      rw [parametersText, List.nil_append, start_of_unbracketed unbracketed]
      exact ⟨[], [], .refl _⟩
  | cons parameter parameters =>
      have passes := Passes.flatMap (fun parameter mem => passes_parameter (bounded parameter mem))
        ('>' :: rest)
      obtain ⟨last, found, finds⟩ := passes [] []
      have closed : Finds ⟨'>' :: rest, true, last, [], found⟩ [] ⟨rest, false, last, [], found⟩ :=
        .step (by simp) rfl (by simp)
      have whole := finds.trans closed
      rw [List.append_nil, List.flatMap_cons, List.append_assoc, ← fromColon_parameter] at whole
      refine ⟨last, found, ?_⟩
      simpa [parametersText, start] using whole

theorem inside_body : Inside false [] :=
  .inl rfl

theorem passes_each {ι : Type} (items : List ι) {textOf : ι → List Char}
    {typesOf : ι → List ClassType}
    (each : ∀ item rest, Passes false [] (textOf item ++ rest) (internalNames (typesOf item)) rest)
    (rest : List Char) :
    Passes false [] (items.flatMap textOf ++ rest) (internalNames (items.flatMap typesOf))
      rest := by
  have passes : Passes false [] (resume false [] (items.flatMap textOf ++ rest))
      (internalNames (items.flatMap typesOf)) (resume false [] rest) := by
    apply Passes.flatMap
    intro item _ rest
    simpa only [inside_body.resume_eq] using each item rest
  simpa only [inside_body.resume_eq] using passes

theorem passes_supertype (type : ClassType) (rest : List Char) :
    Passes false [] (type.text ++ rest) (internalNames type.classTypes) rest := by
  have passes := passes_classType type false [] rest
  rwa [inside_body.resume_eq] at passes

theorem passes_result (result : Option JavaType) (rest : List Char) :
    Passes false [] (result.elim ['V'] JavaType.text ++ rest)
      (internalNames (result.elim [] JavaType.classTypes)) rest := by
  cases result with
  | none => exact (Passes.refl rest).skip (by decide)
  | some type => exact passes_javaType type false [] inside_body rest

theorem passes_thrown (thrown : Thrown) (rest : List Char) :
    Passes false [] (thrown.text ++ rest) (internalNames thrown.classTypes) rest := by
  cases thrown with
  | classType type => exact (passes_supertype type rest).skip (by decide)
  | typeVariable name =>
      exact (passes_referenceType (.typeVariable name) false [] inside_body rest).skip (by decide)

theorem passes_body (signature : Signature) :
    Passes false [] signature.bodyText (internalNames signature.bodyClassTypes) [] := by
  cases signature with
  | ofClass parameters superclass interfaces =>
      have passes := (passes_supertype superclass _).trans
        (passes_each interfaces passes_supertype [])
      rwa [List.append_nil, ← internalNames_append] at passes
  | ofMethod parameters arguments result thrown =>
      have after := (passes_result result _).trans (passes_each thrown passes_thrown [])
      rw [List.append_nil, ← internalNames_append] at after
      have before := passes_each arguments fun type => passes_javaType type false [] inside_body
      have closing : ')' ∉ ['L', '.', 'T', '<', '>', ';'] := by decide
      have passes := (before _).trans (after.skip closing)
      rw [← internalNames_append] at passes
      exact passes.skip (by decide)
  | ofField type =>
      have passes := passes_referenceType type false [] inside_body []
      rwa [List.append_nil] at passes

theorem head?_bodyText (signature : Signature) : signature.bodyText.head? ≠ some '<' := by
  cases signature with
  | ofClass parameters superclass interfaces =>
      cases superclass
      simp [Signature.bodyText, ClassType.text]
  | ofMethod parameters arguments result thrown => simp [Signature.bodyText]
  | ofField type =>
      cases type with
      | classType type =>
          cases type
          simp [Signature.bodyText, ReferenceType.text, ClassType.text]
      | typeVariable name => simp [Signature.bodyText, ReferenceType.text, variableText]
      | array element => simp [Signature.bodyText, ReferenceType.text]

end SignatureScan

open SignatureScan in
theorem mem_signatureNames_iff {signature : Signature}
    (bounded : ∀ parameter ∈ signature.parameters, parameter.Bounded) {name : String} :
    name ∈ signatureNames (String.ofList signature.text) ↔
      name ∈ signature.classTypes.flatMap ClassType.names := by
  obtain ⟨current, found, started⟩ := finds_start bounded (head?_bodyText signature)
  obtain ⟨last, found', passed⟩ := passes_body signature current found
  have finds := started.trans passed
  rw [← internalNames_append] at finds
  have ran := run_of_reaches finds.reaches rfl (length_rest_start_le _)
  have found_iff (internal : List Char) :
      internal ∈ found' ↔ ∃ type ∈ signature.classTypes, internal ∈ type.namesWith '/' := by
    rw [finds.found_iff, found_start, internalNames, List.mem_flatMap, Signature.classTypes]
    simp
  simp only [signatureNames, String.toList_ofList, Signature.text, ran, List.mem_map,
    List.mem_reverse, List.mem_flatMap, found_iff, ← ClassType.map_qualified_namesWith]
  constructor
  · rintro ⟨internal, ⟨type, occurs, names⟩, rfl⟩
    exact ⟨type, occurs, internal, names, rfl⟩
  · rintro ⟨type, occurs, internal, names, rfl⟩
    exact ⟨internal, ⟨type, occurs, names⟩, rfl⟩

/-- The scan of a signature finds exactly the names of the class types that occur in it, neither
type variables nor the names of type parameters. -/
theorem mem_signatureNames_text (signature : Signature)
    (bounded : ∀ parameter ∈ signature.parameters, parameter.Bounded) (name : String) :
    name ∈ signatureNames (String.ofList signature.text) ↔
      ∃ type ∈ signature.classTypes, name ∈ type.names := by
  rw [mem_signatureNames_iff bounded, List.mem_flatMap]

/-- A method with type parameters whose names start as types do, one of which has only an interface
as bound, and with type arguments of every kind. -/
def genericMethod : Signature :=
  let p : Identifier := ⟨['p'], by simp [reserved]⟩
  let q : Identifier := ⟨['q'], by simp [reserved]⟩
  let A : Identifier := ⟨['A'], by simp [reserved]⟩
  let T : Identifier := ⟨['T'], by simp [reserved]⟩
  let LT : Identifier := ⟨['L', 'T'], by simp [reserved]⟩
  let plain (name : Identifier) : ReferenceType := .classType (.mk [p] (.mk name []) [])
  let recursive : ClassType := .mk [q] (.mk T [.bounded none (.typeVariable LT)]) []
  let outer : SimpleClass :=
    .mk A [.unbounded, .bounded (some .containing) (.array (.base .int)),
      .bounded (some .extending) (.array (.reference (plain T)))]
  let inner : SimpleClass := .mk T [.bounded none (plain LT)]
  .ofMethod [⟨LT, some (plain A), []⟩, ⟨T, none, [.classType recursive]⟩]
    [.reference (.classType (.mk [q, p] outer [inner]))] none
    [.classType (.mk [] (.mk A []) []), .typeVariable T]

theorem mem_signatureNames_genericMethod :
    String.ofList genericMethod.text =
      "<LT:Lp/A;T::Lq/T<TLT;>;>(Lq/p/A<*-[I+[Lp/T;>.T<Lp/LT;>;)V^LA;^TT;" ∧
    (∀ parameter ∈ genericMethod.parameters, parameter.Bounded) ∧
    ∀ name, name ∈ signatureNames (String.ofList genericMethod.text) ↔
      name ∈ ["p.A", "q.T", "q.p.A", "q.p.A$T", "p.T", "p.LT", "A"] := by
  have bounded : ∀ parameter ∈ genericMethod.parameters, parameter.Bounded := by
    simp only [genericMethod, Signature.parameters, List.forall_mem_cons]
    refine ⟨⟨by simp [TypeParameter.bounds], ?_⟩, ⟨by simp [TypeParameter.bounds], ?_⟩, by simp⟩
    · simp [TypeParameter.bounds, ReferenceType.isArray]
    · simp [TypeParameter.bounds, ReferenceType.isArray]
  have names : genericMethod.classTypes.flatMap ClassType.names =
      ["p.A", "q.T", "q.p.A", "q.p.A$T", "p.T", "p.LT", "A"] := by decide
  refine ⟨by decide, bounded, ?_⟩
  intro name
  rw [mem_signatureNames_text genericMethod bounded, ← List.mem_flatMap, names]

end Coupling.ClassFile
