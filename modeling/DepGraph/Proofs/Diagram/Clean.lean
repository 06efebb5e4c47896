/-
  DepGraph — when the edges of a graph are clean.

  Listing the edges of a map leaves out repetitions and edges from an entity to
  itself, and so does truncating names.  Cutting a common beginning does
  neither: names that it makes equal are one name from then on.

  * `Clean`: no edge twice, and none from a name to itself.
  * `KeepsApart`: cutting a beginning makes no ends and no edges equal.
  * `clean_edges_iff`: exactly when the edges of a graph are clean.
-/
import Mathlib.Data.List.Nodup
import DepGraph.Graph.Cycle
import DepGraph.Proofs.Diagram.Stages

namespace DepGraph

open DepGraph.Text

/-- No edge occurs twice, and none leads from a name to itself. -/
def Clean (edges : List Edge) : Prop := edges.Nodup ∧ ∀ e ∈ edges, e.1 ≠ e.2

/-- Cutting a beginning from names makes neither the ends of an edge equal nor
  two edges. -/
def KeepsApart (start : String) (edges : List Edge) : Prop :=
  (∀ e ∈ edges, cutStart start e.1 ≠ cutStart start e.2) ∧
    ∀ e ∈ edges, ∀ f ∈ edges, cutStart start e.1 = cutStart start f.1 →
      cutStart start e.2 = cutStart start f.2 → e = f

theorem clean_cleanFrom (seen edges : List Edge) : Clean (Dependencies.cleanFrom seen edges) :=
  ⟨Dependencies.nodup_cleanFrom seen edges, fun _ he => (Dependencies.mem_cleanFrom.1 he).2.1⟩

/-- Truncated names have clean edges. -/
theorem clean_collapse (separator : String) (depths : Depths) (inside : List String)
    (edges : List Edge) : Clean (collapse separator depths inside edges) := clean_cleanFrom ..

/-- Cutting a beginning keeps edges clean iff it keeps them apart. -/
theorem clean_cutStarts_iff {start : String} {edges : List Edge} (h : edges.Nodup) :
    Clean (cutStarts start edges) ↔ KeepsApart start edges := by
  rw [Clean, KeepsApart, cutStarts, List.nodup_map_iff_inj_on h, and_comm]
  refine and_congr ?_ ?_
  · exact List.forall_mem_map
  · simp only [Prod.mk.injEq, and_imp]

namespace Diagram

theorem clean_edgesOf_iff {separator : String} {o : DiagramOptions} {deps : Dependencies} :
    Clean (edgesOf separator o deps) ↔
      o.depths.isActive = true ∨ KeepsApart o.start deps.edges := by
  unfold edgesOf wholeEdges
  split
  · next h => exact iff_of_true (clean_collapse ..) (.inl h)
  · next h =>
    rw [clean_cutStarts_iff (Dependencies.nodup_edges deps)]
    exact ⟨.inr, fun hor => hor.resolve_left h⟩

/-- **When the edges of a graph are clean**: if names are truncated, or if cutting
  the beginning keeps the edges between whole names apart. -/
theorem clean_edges_iff {s : Survey} {o : DiagramOptions} (h : (select s o.byPaths).2 ≠ "") :
    ∃ d whole, build? s o = some d ∧ build? s o.whole = some whole ∧
      (Clean d.edges ↔ o.depths.isActive = true ∨ KeepsApart o.start whole.edges) := by
  obtain ⟨d, hd, -, hedges⟩ := exists_build? h
  obtain ⟨whole, hwhole, -, hwholeEdges⟩ := exists_build?_whole s o
  exact ⟨d, whole, hd, hwhole, by rw [hedges, hwholeEdges, clean_edgesOf_iff]⟩

/-- Three files, one of which has the name of another within a folder. -/
def twinNames : Survey :=
  { Survey.empty "/" with
    paths := OrderedMap.ofList [("lib/a", ["lib/b", "b"]), ("lib/b", ["b"]), ("b", [])] }

/-- What is drawn if the name of the folder is cut. -/
def withoutLib (results : NameFilter) : DiagramOptions := { results, start := "lib/" }

/-- The names that start with the first letter of the folder. -/
def withinLib : NameFilter := ⟨[.seq (.place .textStart) (.char (.literal .exact 108))], []⟩

/-- Within the folder names stay apart, and the edges are clean. -/
theorem clean_edges_withinLib :
    (select twinNames (withoutLib withinLib).byPaths).2 ≠ "" ∧
      ∃ d, build? twinNames (withoutLib withinLib) = some d ∧ d.edges ≠ [] ∧ Clean d.edges := by
  have hsep : (select twinNames (withoutLib withinLib).byPaths).2 ≠ "" := by decide
  obtain ⟨d, whole, hd, hwhole, hclean⟩ := clean_edges_iff hsep
  have hedges : (build? twinNames (withoutLib withinLib)).map (·.edges) = some [("a", "b")] := by
    decide +kernel
  have hwholeEdges : (build? twinNames (withoutLib withinLib).whole).map (·.edges) =
      some [("lib/a", "lib/b")] := by decide +kernel
  rw [hd, Option.map_some, Option.some.injEq] at hedges
  rw [hwhole, Option.map_some, Option.some.injEq] at hwholeEdges
  refine ⟨hsep, d, hd, by simp [hedges], hclean.2 (.inr ?_)⟩
  rw [hwholeEdges]
  exact ⟨by decide, by decide⟩

/-- A file and its namesake become one name: an edge is drawn twice, and the edge
  between the two leads from a name to itself and counts as a cycle. -/
theorem not_clean_edges_twinNames :
    ∃ d, build? twinNames (withoutLib .all) = some d ∧
      d.edges = [("a", "b"), ("a", "b"), ("b", "b")] ∧ ¬ Clean d.edges ∧
      Cycle.findCycles d.edges = [["b", "b"]] := by
  have hedges : (build? twinNames (withoutLib .all)).map (·.edges) =
      some [("a", "b"), ("a", "b"), ("b", "b")] := by decide +kernel
  obtain ⟨d, hd, h⟩ := Option.map_eq_some_iff.1 hedges
  refine ⟨d, hd, h, ?_, ?_⟩
  · rw [h]
    exact fun hclean => hclean.2 ("b", "b") (by simp) rfl
  · rw [h]
    decide +kernel

end Diagram

end DepGraph
