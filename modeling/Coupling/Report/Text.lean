import Coupling.Analysis
import Coupling.Project
import Coupling.Recent
import Coupling.Report.Basic

/-!
# Text reports

What is shown of analyses, metrics, projects and recent projects.
-/

namespace Coupling

/-- What came of asking for the metrics of a class. -/
inductive MetricsOutcome where
  /-- Its source was measured. -/
  | found (source : Path) (metrics : ClassMetrics)
  /-- No source folder holds its source. -/
  | sourceNotFound (className : ClassName)
  /-- Its source declares no class. -/
  | noClassDeclaration (className : ClassName) (source : Path)
deriving DecidableEq, Repr

namespace Report

/-- A character several times. -/
def rule (mark : Char) (width : Nat) : String :=
  String.ofList (List.replicate width mark)

/-- The text with blanks after it up to a width. -/
def padRight (width : Nat) (content : String) : String :=
  content ++ rule ' ' (width - content.length)

/-- The text with blanks before it up to a width. -/
def padLeft (width : Nat) (content : String) : String :=
  rule ' ' (width - content.length) ++ content

/-- The head of a report. -/
def header (title : String) : Report :=
  text "\n" ++ styled .bold title ++ text ("\n" ++ rule '=' 40 ++ "\n\n")

/-- A node and its successors. -/
def nodeLine (node : String) (targets : List String) : String :=
  if targets.isEmpty then "  " ++ node ++ "\n"
  else "  " ++ node ++ " -> " ++ ", ".intercalate targets ++ "\n"

/-- The nodes of a graph with their successors, one a line. -/
def graph (shown : Graph) : Report :=
  text "\n" ++ styled .bold "Dependencies" ++ text ("\n" ++ rule '-' 40 ++ "\n") ++
    text (String.join (shown.adjacency.toList.map fun (node, targets) =>
      nodeLine node targets.toList))

/-- A cycle as a path that returns to where it started. -/
def cyclePath (cycle : List String) : String :=
  " -> ".intercalate (cycle ++ cycle.take 1)

/-- Numbered lines. -/
def numbered (lines : List String) : String :=
  String.join (lines.zipIdx.map fun (line, position) =>
    "  " ++ toString (position + 1) ++ ". " ++ line ++ "\n")

/-- The cycles that were found, one a line. -/
def cycles (found : List (List String)) : Report :=
  if found.isEmpty then
    text "\n" ++ styled .boldGreen "No cycles found!" ++ text "\n"
  else
    text "\n" ++ styled .boldRed "Cycles" ++
      text (" (" ++ toString found.length ++ " found)\n" ++ rule '-' 40 ++ "\n") ++
      text (numbered (found.map cyclePath))

/-- The report on the packages of a project. -/
def packages (analysis : PackageAnalysis) : Report :=
  header "tangle - Package Dependencies" ++ styled .bold "Summary" ++
    text (": " ++ toString analysis.graph.nodeCount ++ " packages (" ++
      toString analysis.classCount ++ " classes), " ++ toString analysis.graph.edgeCount ++
      " dependencies\n") ++
    graph analysis.graph ++ cycles analysis.cycles ++ text "\n"

/-- A simple name and the classes that share it. -/
def collisionLine (simple : SimpleName) (classes : List ClassName) : String :=
  "  " ++ simple ++ ": " ++ ", ".intercalate classes ++ "\n"

/-- The simple names that several classes share, one a line. -/
def collisions (found : Std.ExtTreeMap SimpleName (List ClassName)) : Report :=
  if found.isEmpty then []
  else
    text "\n" ++ styled .boldYellow "Simple name collisions" ++
      text " (merged into one node each)\n" ++
      text (String.join (found.toList.map fun (simple, classes) => collisionLine simple classes))

/-- The report on the classes of a project. -/
def classes (analysis : ClassAnalysis) : Report :=
  header "tangle - Class Dependencies" ++ styled .bold "Summary" ++
    text (": " ++ toString analysis.selectedCount ++ " classes selected, " ++
      toString analysis.graph.nodeCount ++ " nodes, " ++ toString analysis.graph.edgeCount ++
      " dependencies\n") ++
    collisions analysis.collisions ++ graph analysis.graph ++ cycles analysis.cycles ++ text "\n"

/-- A method above this complexity stands out. -/
def highComplexity : Nat := 10

/-- A method above this complexity is marked. -/
def moderateComplexity : Nat := 5

/-- How a complexity is shown. -/
def complexityStyle (complexity : Nat) : Style :=
  if highComplexity < complexity then .boldRed
  else if moderateComplexity < complexity then .yellow
  else .plain

/-- The measures of a method. -/
def methodLine (method : MethodMetrics) : Report :=
  text ("  " ++ padRight 32 method.name ++ " " ++ padLeft 6 (toString method.parameterCount) ++
      " " ++ padLeft 10 (toString method.statementCount) ++ " ") ++
    styled (complexityStyle method.complexity) (padLeft 10 (toString method.complexity)) ++
    text "\n"

/-- The most complex method. -/
def mostComplexLine : Option MethodMetrics → String
  | some method =>
    "  Most complex: " ++ method.name ++ " (" ++ toString method.complexity ++ ")\n"
  | none => ""

/-- The measures of all methods of a class. -/
def methodTable (metrics : ClassMetrics) : Report :=
  text ("\n  " ++ padRight 32 "Method" ++ " " ++ padLeft 6 "Params" ++ " " ++
      padLeft 10 "Statements" ++ " " ++ padLeft 10 "Complexity" ++ "\n" ++
      "  " ++ rule '-' 61 ++ "\n") ++
    if metrics.methods.isEmpty then text "  (no methods)\n"
    else
      metrics.methods.flatMap methodLine ++
        text ("\n  Total complexity: " ++ toString metrics.totalComplexity ++ "\n" ++
          mostComplexLine metrics.mostComplex?)

/-- The report on the methods of a class. -/
def metrics : MetricsOutcome → Report
  | .found source measured =>
    header "tangle - Method Metrics" ++
      styled .bold "Class" ++ text (": " ++ measured.className ++ "\n") ++
      styled .bold "Source" ++ text (": " ++ source.text ++ "\n") ++
      methodTable measured ++ text "\n"
  | .sourceNotFound className =>
    styled .yellow "Source file not found for class" ++ text (": " ++ className ++ "\n")
  | .noClassDeclaration className source =>
    styled .yellow "No class declaration in" ++
      text (": " ++ source.text ++ " (expected " ++ className ++ ")\n")

/-- Paths, one a line. -/
def pathLines (paths : List Path) : String :=
  if paths.isEmpty then "    (none)\n"
  else String.join (paths.map fun path => "    " ++ path.text ++ "\n")

/-- The report on a project descriptor. -/
def project (shown : Project) : Report :=
  styled .bold "Project" ++
    text (": " ++ shown.name ++ "\n" ++
      "  Artifacts:\n" ++ pathLines shown.artifactPaths ++
      "  Source roots:\n" ++ pathLines shown.sourcePaths)

/-- The report on the recent projects. -/
def recent (shown : Recent) : Report :=
  if shown.entries.isEmpty then text "No recent projects.\n"
  else
    styled .bold "Recent projects" ++ text ("\n" ++ numbered (shown.entries.map Path.text))

end Report

end Coupling
