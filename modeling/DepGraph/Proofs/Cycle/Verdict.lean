/-
  DepGraph — the verdict of the cycle check.

  After pruning there are no dead ends, so every walk of the search closes: no
  next edge is ever missing.  The search finds a cycle at once if pruning leaves
  an edge, and it leaves one iff there is a closed walk.

  * `search?_isSome`: the search never breaks off.
  * `findCycles_eq_nil_iff`: it finds nothing iff there is no closed walk.
  * `check_verdict`: both, and what they mean for the status of a check.
-/
import DepGraph.Command.Run
import DepGraph.Proofs.Cycle.Pruning
import DepGraph.Proofs.Run.Survey

namespace DepGraph.Cycle

open Relation

/-- After pruning, the walk from the source of the first edge closes. -/
theorem walk_pruned {edges rest : List Edge} {e : Edge} (h : pruneDeadEnds edges = e :: rest) :
    ∃ nodes again, walk (e :: rest) e.1 = (nodes, some again) := by
  have hd : NoDeadEnds (e :: rest) := h ▸ noDeadEnds_pruneDeadEnds
  have hs : hasSource (e :: rest) e.1 = true := hasSource_iff.2 ⟨e.2, List.mem_cons_self⟩
  obtain ⟨nodes, again, hw, -⟩ := walk_closes hd hs
  exact ⟨nodes, again, hw⟩

theorem search?_isSome (edges : List Edge) : ∃ cycles, search? edges = some cycles := by
  fun_induction search? edges with
  | case1 edges h => exact ⟨[], rfl⟩
  | case2 edges e rest h nodes hw =>
    obtain ⟨nodes', again, hw'⟩ := walk_pruned h
    rw [hw'] at hw
    simp at hw
  | case3 edges e rest h nodes again hw ih =>
    obtain ⟨cycles, hc⟩ := ih
    exact ⟨closeWalk nodes again :: cycles, by rw [hc]; rfl⟩

theorem search?_eq (edges : List Edge) : search? edges = some (findCycles edges) := by
  obtain ⟨cycles, h⟩ := search?_isSome edges
  rw [findCycles, h, Option.getD_some]

/-- The first search finds a cycle, unless pruning leaves no edge. -/
theorem findCycles_eq_nil_iff {edges : List Edge} : findCycles edges = [] ↔ ¬ HasCycle edges := by
  rw [← pruneDeadEnds_eq_nil_iff]
  have hsome := search?_eq edges
  unfold search? at hsome
  split at hsome
  · next h =>
    obtain h' : [] = findCycles edges := Option.some.inj hsome
    exact iff_of_true h'.symm h
  · next e rest h =>
    obtain ⟨nodes, again, hw⟩ := walk_pruned h
    rw [hw, Option.map_eq_some_iff] at hsome
    obtain ⟨later, -, hl⟩ := hsome
    rw [← hl, h]
    simp

end DepGraph.Cycle

namespace DepGraph

open DepGraph.Cycle Relation

/-- The graph that a request asks for. -/
def GraphRequest.diagram? (r : GraphRequest) (ws : Workspace) : Except Failure Diagram :=
  (r.settings ws).bind fun s => (Run.diagram ws (Config.ofSettings s)).result

/-- A command goes on with the graph that it asks for. -/
theorem GraphRequest.build_of_diagram? {r : GraphRequest} {ws : Workspace} {d : Diagram}
    (h : r.diagram? ws = .ok d) :
    ∃ c after reports, ∀ next, r.build ws next = next c d after reports := by
  unfold GraphRequest.diagram? at h
  cases hs : r.settings ws with
  | error f => rw [hs] at h; cases h
  | ok s =>
    rw [hs] at h
    refine ⟨Config.ofSettings s, (Run.diagram ws (Config.ofSettings s)).workspace,
      (Run.diagram ws (Config.ofSettings s)).progress.map Progress.text, fun next => ?_⟩
    change (Run.diagram ws (Config.ofSettings s)).result = .ok d at h
    simp only [GraphRequest.build, hs, h]

theorem status_reportCycles (c : Config) (d : Diagram) (ws : Workspace) (reports : List String) :
    ((reportCycles c d ws reports).status = 1 ↔ findCycles d.edges ≠ []) ∧
      ((reportCycles c d ws reports).status = 0 ↔ findCycles d.edges = []) := by
  unfold reportCycles Diagram.cycles
  split
  · next h => simp [h]
  · next h => simpa using h

/-- **The cycle check is exact.**  The search ends without missing an edge, and it
  finds nothing iff no closed walk exists; so a check of a graph ends with
  status 1 if the edges of the graph have a closed walk, else with status 0. -/
theorem check_verdict :
    (∀ edges : List Edge, search? edges = some (findCycles edges) ∧
      (findCycles edges = [] ↔ ¬ HasCycle edges)) ∧
    ∀ (ws : Workspace) (r : GraphRequest) (d : Diagram), r.diagram? ws = .ok d →
      ((Command.run ws (.check r)).status = 1 ↔ HasCycle d.edges) ∧
      ((Command.run ws (.check r)).status = 0 ↔ ¬ HasCycle d.edges) := by
  refine ⟨fun edges => ⟨search?_eq edges, findCycles_eq_nil_iff⟩, fun ws r d hd => ?_⟩
  obtain ⟨c, after, reports, hbuild⟩ := GraphRequest.build_of_diagram? hd
  have hstatus := status_reportCycles c d after reports
  rw [findCycles_eq_nil_iff, ne_eq, findCycles_eq_nil_iff, not_not] at hstatus
  rwa [Command.run, hbuild]

/-- Two files that include each other. -/
def mutualIncludes : Workspace :=
  let text := fun (s : String) => Entry.file (s.toList.map fun c => c.toNat.toUInt8)
  ⟨OrderedMap.ofList [(["a.h"], text "#include <b.h>"), (["b.h"], text "#include <a.h>")]⟩

/-- A check of all files that may hold `#include` directives. -/
def checkIncludes : GraphRequest := ⟨[(.language, some "c")], none⟩

theorem edges_mutualIncludes :
    (checkIncludes.diagram? mutualIncludes).toOption.map (·.edges) =
      some [("a.h", "b.h"), ("b.h", "a.h")] := by
  have hlisting : mutualIncludes.listing [] = [["a.h"], ["b.h"]] :=
    Workspace.listing_of_pairwise rfl (by decide)
  have hrun := survey_ofLanguage mutualIncludes .c
  rw [Workspace.wholeTarget, hlisting] at hrun
  have hdiagram : checkIncludes.diagram? mutualIncludes =
      (Run.diagram mutualIncludes (Config.ofLanguage .c none)).result := rfl
  rw [hdiagram]
  simp only [Run.diagram, hrun]
  decide +kernel

theorem check_verdict_mutualIncludes :
    ∃ d, checkIncludes.diagram? mutualIncludes = .ok d ∧ HasCycle d.edges ∧
      (Command.run mutualIncludes (.check checkIncludes)).status = 1 := by
  have hedges := edges_mutualIncludes
  cases hd : checkIncludes.diagram? mutualIncludes with
  | error f => rw [hd] at hedges; cases hedges
  | ok d =>
    rw [hd] at hedges
    obtain hedges : d.edges = _ := Option.some.inj hedges
    have hcycle : HasCycle d.edges := by
      rw [hedges]
      exact ⟨"a.h", .head (b := "b.h") (by simp [Step]) (.single (by simp [Step]))⟩
    exact ⟨d, rfl, hcycle, ((check_verdict.2 _ _ d hd).1).2 hcycle⟩

end DepGraph
