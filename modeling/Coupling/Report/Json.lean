import Coupling.Graph.Document
import Coupling.Json.Printer
import Coupling.Registry.Document
import Coupling.Report.Text

/-!
# JSON reports

The records that analyses, metrics and the project index are written as.
-/

namespace Coupling

/-- The cycles as an array of arrays. -/
def cyclesJson (cycles : List (List String)) : Json :=
  .array (cycles.map Json.texts)

namespace ProjectIndex

/-- The index as a record. -/
def toJson (index : ProjectIndex) : Json :=
  .record
    [("classes", .record (index.classes.toList.map fun (name, info) => (name, info.toJson))),
     ("package_graph", index.packageGraph.toJson),
     ("package_contents",
       .record (index.packageContents.toList.map fun (package, members) =>
         (package, .texts members.toList)))]

end ProjectIndex

namespace PackageAnalysis

/-- The analysis as a record. -/
def toJson (analysis : PackageAnalysis) : Json :=
  .record
    [("selected", .texts analysis.selected),
     ("class_count", .nat analysis.classCount),
     ("graph", analysis.graph.toJson),
     ("cycles", cyclesJson analysis.cycles)]

end PackageAnalysis

namespace ClassAnalysis

/-- The shared simple names as an object from each to the classes that share it. -/
def collisionsJson (collisions : Std.ExtTreeMap SimpleName (List ClassName)) : Json :=
  .record (collisions.toList.map fun (simple, classes) => (simple, .texts classes))

/-- The analysis as a record. -/
def toJson (analysis : ClassAnalysis) : Json :=
  .record
    [("selected_count", .nat analysis.selectedCount),
     ("graph", analysis.graph.toJson),
     ("cycles", cyclesJson analysis.cycles),
     ("collisions", collisionsJson analysis.collisions)]

end ClassAnalysis

/-- The measures of a method as a record. -/
def MethodMetrics.toJson (method : MethodMetrics) : Json :=
  .record
    [("name", .text method.name),
     ("parameter_count", .nat method.parameterCount),
     ("statement_count", .nat method.statementCount),
     ("cyclomatic_complexity", .nat method.complexity)]

/-- The measures of a class as a record. -/
def ClassMetrics.toJson (metrics : ClassMetrics) : Json :=
  .record
    [("class_name", .text metrics.className),
     ("methods", .array (metrics.methods.map MethodMetrics.toJson))]

/-- What came of asking for metrics as a record, which starts with a word for the outcome. -/
def MetricsOutcome.toJson : MetricsOutcome → Json
  | .found source metrics =>
    .record
      [("status", .text "found"), ("source", .text source.text), ("metrics", metrics.toJson)]
  | .sourceNotFound className =>
    .record [("status", .text "source_not_found"), ("class", .text className)]
  | .noClassDeclaration className source =>
    .record
      [("status", .text "no_class_declaration"), ("class", .text className),
       ("source", .text source.text)]

end Coupling
