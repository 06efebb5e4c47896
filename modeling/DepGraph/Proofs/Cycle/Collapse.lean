/-
  DepGraph — truncated names keep walks and visible cycles.

  An edge becomes an edge between the truncated names, unless they are equal; so
  a walk becomes a walk, perhaps a shorter one.  A closed walk through nodes with
  different truncated names keeps at least one edge.

  * `reach_collapse`: a walk between names is one between truncated names.
  * `collapse_keeps_walks`: walks and visible cycles are kept.
-/
import DepGraph.Proofs.Cycle.Verdict
import DepGraph.Proofs.Graph.Collapse

namespace DepGraph.Cycle

open Relation

/-- There and back between different nodes is a closed walk. -/
theorem hasCycle_of_reach {edges : List Edge} {a b : String} (hne : a ≠ b)
    (hab : ReflTransGen (Step edges) a b) (hba : ReflTransGen (Step edges) b a) :
    HasCycle edges := by
  rcases reflTransGen_iff_eq_or_transGen.1 hab with heq | hab
  · exact absurd heq.symm hne
  · exact ⟨a, hab.trans_left hba⟩

section
variable {separator : String} {depths : Depths} {inside : List String} {edges : List Edge}
  (hne : ∀ e ∈ edges, truncatedName separator depths inside e.1 ≠ "" ∧
    truncatedName separator depths inside e.2 ≠ "")
include hne

/-- An edge becomes an edge, or its ends become one name. -/
theorem step_collapse {a b : String} (h : Step edges a b) :
    ReflTransGen (Step (collapse separator depths inside edges))
      (truncatedName separator depths inside a) (truncatedName separator depths inside b) := by
  by_cases heq : truncatedName separator depths inside a = truncatedName separator depths inside b
  · rw [heq]
  · obtain ⟨ha, hb⟩ := hne (a, b) h
    exact .single (mem_collapse.2 ⟨⟨(a, b), h, rfl, rfl⟩, ha, hb, heq⟩)

/-- A walk becomes a walk. -/
theorem reach_collapse {a b : String} (h : ReflTransGen (Step edges) a b) :
    ReflTransGen (Step (collapse separator depths inside edges))
      (truncatedName separator depths inside a) (truncatedName separator depths inside b) :=
  ReflTransGen.lift' (truncatedName separator depths inside) (fun _ _ => step_collapse hne) _ _ h

end

/-- **Truncating names keeps walks and visible cycles**: if something separates
  segments and no end of an edge is truncated to nothing, the edges are collapsed,
  what is reached from a name is reached from its truncated name, and a closed
  walk through names that are truncated to different ones leaves a cycle to be
  found.  The depths may have either sign. -/
theorem collapse_keeps_walks (separator : String) (depths : Depths) (inside : List String)
    (edges : List Edge) (hsep : separator ≠ "")
    (hne : ∀ e ∈ edges, truncatedName separator depths inside e.1 ≠ "" ∧
      truncatedName separator depths inside e.2 ≠ "") :
    lacksSeparator separator depths inside edges = false ∧
    (∀ u v, ReflTransGen (Step edges) u v →
      ReflTransGen (Step (collapse separator depths inside edges))
        (truncatedName separator depths inside u) (truncatedName separator depths inside v)) ∧
    ∀ u v, TransGen (Step edges) u v → TransGen (Step edges) v u →
      truncatedName separator depths inside u ≠ truncatedName separator depths inside v →
        findCycles (collapse separator depths inside edges) ≠ [] := by
  refine ⟨by simp [lacksSeparator, hsep], fun u v => reach_collapse hne, ?_⟩
  intro u v huv hvu hdiff
  rw [ne_eq, findCycles_eq_nil_iff, not_not]
  exact hasCycle_of_reach hdiff (reach_collapse hne huv.to_reflTransGen)
    (reach_collapse hne hvu.to_reflTransGen)

/-- A closed walk through three files, two of which lie in one folder. -/
def folderWalk : List Edge := [("a/x", "b/y"), ("b/y", "a/z"), ("a/z", "a/x")]

theorem collapse_keeps_walks_folderWalk :
    "/" ≠ "" ∧
    (∀ e ∈ folderWalk, truncatedName "/" ⟨1, 0⟩ ["a/x", "b/y", "a/z"] e.1 ≠ "" ∧
      truncatedName "/" ⟨1, 0⟩ ["a/x", "b/y", "a/z"] e.2 ≠ "") ∧
    TransGen (Step folderWalk) "a/x" "b/y" ∧ TransGen (Step folderWalk) "b/y" "a/x" ∧
    truncatedName "/" ⟨1, 0⟩ ["a/x", "b/y", "a/z"] "a/x" = "a" ∧
    truncatedName "/" ⟨1, 0⟩ ["a/x", "b/y", "a/z"] "b/y" = "b" ∧
    findCycles (collapse "/" ⟨1, 0⟩ ["a/x", "b/y", "a/z"] folderWalk) ≠ [] := by
  have hsep : "/" ≠ "" := by decide
  have hne : ∀ e ∈ folderWalk, truncatedName "/" ⟨1, 0⟩ ["a/x", "b/y", "a/z"] e.1 ≠ "" ∧
      truncatedName "/" ⟨1, 0⟩ ["a/x", "b/y", "a/z"] e.2 ≠ "" := by decide +kernel
  have hxy : TransGen (Step folderWalk) "a/x" "b/y" := .single (by simp [Step, folderWalk])
  have hyx : TransGen (Step folderWalk) "b/y" "a/x" :=
    .head (b := "a/z") (by simp [Step, folderWalk]) (.single (by simp [Step, folderWalk]))
  have hx : truncatedName "/" ⟨1, 0⟩ ["a/x", "b/y", "a/z"] "a/x" = "a" := by decide +kernel
  have hy : truncatedName "/" ⟨1, 0⟩ ["a/x", "b/y", "a/z"] "b/y" = "b" := by decide +kernel
  obtain ⟨-, -, hcycle⟩ := collapse_keeps_walks "/" ⟨1, 0⟩ ["a/x", "b/y", "a/z"] folderWalk hsep hne
  exact ⟨hsep, hne, hxy, hyx, hx, hy, hcycle _ _ hxy hyx (by rw [hx, hy]; decide)⟩

end DepGraph.Cycle
