import Coupling.Graph.Document
import Coupling.Proofs.Json.RoundTrip
import Coupling.Proofs.Name

/-!
# Graphs and their texts

The text of a graph, with or without blanks, says what the graph is: its nodes,
those without edges among them, and the targets of each node, whether they are
nodes or not.

Reading takes up one node after the other. The nodes of a graph are written once
each, so no later one takes the place of an earlier one.
-/

namespace Coupling

theorem ofList_toList {β : Type} (map : Std.ExtTreeMap String β) :
    Std.ExtTreeMap.ofList map.toList = map := by
  apply Std.ExtTreeMap.ext_getElem?
  intro key
  cases found : map[key]? with
  | none =>
      apply Std.ExtTreeMap.getElem?_ofList_of_contains_eq_false
      rw [Std.ExtTreeMap.map_fst_toList_eq_keys]
      simpa using found
  | some value =>
      have entry : (key, value) ∈ map.toList :=
        Std.ExtTreeMap.mem_toList_iff_getElem?_eq_some.mpr found
      exact Std.ExtTreeMap.getElem?_ofList_of_mem Std.ReflCmp.compare_self
        Std.ExtTreeMap.distinct_keys_toList entry

namespace Graph

variable (graph : Graph)

theorem textual_toJson : graph.toJson.Textual := by
  apply Json.Textual.record
  intro field fieldMem
  rcases List.mem_map.mp fieldMem with ⟨entry, _, rfl⟩
  exact .texts entry.2.toList

theorem addMember?_texts (node : String) (targets : NameSet) :
    graph.addMember? (some node, .texts targets.toList) =
      some ⟨graph.adjacency.insert node targets⟩ := by
  simp [addMember?, Json.asTexts?_texts, NameSet.ofList_toList]

theorem foldlM_addMember? (entries : List (String × NameSet)) :
    (entries.map fun entry => (some entry.1, Json.texts entry.2.toList)).foldlM addMember? graph =
      some ⟨entries.foldl (fun adjacency entry => adjacency.insert entry.1 entry.2)
        graph.adjacency⟩ := by
  induction entries generalizing graph with
  | nil => rfl
  | cons entry rest ih =>
      rw [List.map_cons, List.foldlM_cons, addMember?_texts, Option.bind_eq_bind, Option.bind_some,
        ih, List.foldl_cons]

theorem ofJson?_toJson : ofJson? graph.toJson = some graph := by
  have members : graph.toJson = .object
      (graph.adjacency.toList.map fun entry => (some entry.1, .texts entry.2.toList)) := by
    simp [toJson, Json.record, Function.comp_def]
  have rebuilt : graph.adjacency.toList.foldl
      (fun adjacency entry => adjacency.insert entry.1 entry.2) ∅ = graph.adjacency := by
    rw [← Std.ExtTreeMap.ofList_eq_foldl, ofList_toList]
  rw [members, ofJson?, foldlM_addMember?]
  exact congrArg (fun adjacency => some (Graph.mk adjacency)) rebuilt

/-- Every graph is read back from its text, whatever its names are and however the text is laid
out. -/
theorem graph_restored_from_text (graph : Graph) (compact : Bool) :
    (Json.parse? (graph.toJson.format compact)).bind ofJson? = some graph := by
  rw [graph.textual_toJson.parse?_format compact, Option.bind_some, ofJson?_toJson]

end Graph

end Coupling
