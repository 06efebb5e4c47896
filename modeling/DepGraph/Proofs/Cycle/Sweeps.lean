/-
  DepGraph — the sweeps of pruning.

  Each sweep looks at the edges that the sweeps before have left.  One that removes
  nothing is the last; any other removes an edge, so there are no more of them than
  edges.  Where the last sweep ends is told by the graph alone: an edge is left iff a
  closed walk can be reached from its target.

  * `Settles`: a number of sweeps after which nothing changes any more.
  * `exists_settles`: there is one, and pruning stops there.
  * `pruneDeadEnds_exact`: what pruning keeps.
-/
import Mathlib.Logic.Function.Iterate
import DepGraph.Proofs.Cycle.Pruning

namespace DepGraph.Cycle

/-- Each of so many sweeps removes an edge, and one more sweep removes none. -/
structure Settles (edges : List Edge) (sweeps : Nat) : Prop where
  removes : ∀ n < sweeps, (prune^[n + 1] edges).length < (prune^[n] edges).length
  settled : prune (prune^[sweeps] edges) = prune^[sweeps] edges

section
variable {edges : List Edge} {sweeps : Nat}

/-- Nothing is removed if every target has an edge to go on with. -/
theorem settles_zero (h : NoDeadEnds edges) : Settles edges 0 where
  removes _ hn := absurd hn (Nat.not_lt_zero _)
  settled := List.filter_eq_self.2 h

/-- A sweep that removes an edge comes before those of what it leaves. -/
theorem Settles.succ (hlt : (prune edges).length < edges.length) (h : Settles (prune edges) sweeps) :
    Settles edges (sweeps + 1) where
  removes n hn := by
    cases n with
    | zero => exact hlt
    | succ n => exact h.removes n (Nat.lt_of_succ_lt_succ hn)
  settled := h.settled

/-- Pruning stops at the first sweep that removes nothing. -/
theorem exists_settles (edges : List Edge) :
    ∃ sweeps ≤ edges.length, Settles edges sweeps ∧ pruneDeadEnds edges = prune^[sweeps] edges := by
  fun_induction pruneDeadEnds edges with
  | case1 edges hlt ih =>
    obtain ⟨sweeps, hle, hsettles, heq⟩ := ih
    exact ⟨sweeps + 1, Nat.lt_of_le_of_lt hle hlt, hsettles.succ hlt, heq⟩
  | case2 edges hnot =>
    have hself : pruneDeadEnds edges = edges := by rw [pruneDeadEnds, if_neg hnot]
    exact ⟨0, Nat.zero_le _, settles_zero (hself ▸ noDeadEnds_pruneDeadEnds), rfl⟩

end

open Classical in
/-- **Pruning keeps the edges that lead to a closed walk.**  It ends after as many sweeps
  as remove an edge.  What it keeps are the edges from whose target a closed walk of the
  graph can be reached, in order and as often as they occur; and every target that it
  keeps has an edge that it keeps. -/
theorem pruneDeadEnds_exact (edges : List Edge) :
    (∃ sweeps ≤ edges.length,
      Settles edges sweeps ∧ pruneDeadEnds edges = prune^[sweeps] edges) ∧
    pruneDeadEnds edges = edges.filter (fun e => LeadsToCycle edges e.2) ∧
    ∀ e ∈ pruneDeadEnds edges, ∃ target, (e.2, target) ∈ pruneDeadEnds edges := by
  refine ⟨exists_settles edges, pruneDeadEnds_eq_filter edges, fun e he => ?_⟩
  exact hasSource_iff.1 (noDeadEnds_pruneDeadEnds e he)

/-- A way into a cycle, and a way out of it that ends after two edges. -/
def throughCycle : List Edge := [("x", "a"), ("a", "b"), ("b", "a"), ("b", "y"), ("y", "z")]

/-- Two sweeps remove the way out; what is left, the way in included, has a next edge. -/
theorem pruneDeadEnds_exact_throughCycle :
    pruneDeadEnds throughCycle = [("x", "a"), ("a", "b"), ("b", "a")] ∧
      ("x", "a") ∈ pruneDeadEnds throughCycle ∧
      ∃ target, ("a", target) ∈ pruneDeadEnds throughCycle := by
  have hkept : pruneDeadEnds throughCycle = [("x", "a"), ("a", "b"), ("b", "a")] := by
    decide +kernel
  have hin : ("x", "a") ∈ pruneDeadEnds throughCycle := by
    rw [hkept]
    exact List.mem_cons_self
  exact ⟨hkept, hin, (pruneDeadEnds_exact throughCycle).2.2 _ hin⟩

end DepGraph.Cycle
