/-
  DepGraph — edges between truncated names.

  * `cleanFrom_eq`: cleaning an edge list leaves out self-edges and keeps the
    first of equal edges.
  * `truncatedName`: the name that stands for a name when edges are collapsed.
  * `collapse_eq`, `mem_collapse`: the edges between these names.
  * `mem_withLeadingParts`: names and their leading parts.
-/
import DepGraph.Graph.Shorten
import DepGraph.Proofs.Text.Segments

namespace DepGraph

open DepGraph.Text

theorem Dependencies.cleanFrom_eq (seen edges : List Edge) :
    cleanFrom seen edges = (edges.filter fun e => e.1 != e.2 && !seen.contains e).eraseDups := by
  induction edges generalizing seen with
  | nil => rfl
  | cons head rest ih =>
    unfold cleanFrom
    split
    · next h =>
      have hout : (head.1 != head.2 && !seen.contains head) = false := by
        rcases h with h | h <;> simp [h]
      rw [ih, List.filter_cons, if_neg (ne_true_of_eq_false hout)]
    · next h =>
      obtain ⟨hne, hnew⟩ := not_or.1 h
      have hin : (head.1 != head.2 && !seen.contains head) = true := by simp [hne, hnew]
      rw [ih, List.filter_cons, if_pos hin, List.eraseDups_cons, List.filter_filter]
      -- an edge is new to `head :: seen` iff it is new to `seen` and not `head`
      congr 2
      refine List.filter_congr fun e _ => ?_
      by_cases he : e = head <;> simp [he]

/-- The name that stands for a name; `inside` are names within the tree. -/
def truncatedName (separator : String) (depths : Depths) (inside : List String) (name : String) :
    String :=
  shorten separator depths (withLeadingParts separator inside) name

section
variable {separator : String} {depths : Depths} {inside : List String}

/-- Collapsed edges are those between truncated names, without empty names,
  self-edges and repetitions. -/
theorem collapse_eq (separator : String) (depths : Depths) (inside : List String)
    (edges : List Edge) :
    collapse separator depths inside edges =
      ((edges.map fun e => (truncatedName separator depths inside e.1,
        truncatedName separator depths inside e.2)).filter
          fun e => e.1 != "" && e.2 != "" && e.1 != e.2).eraseDups := by
  unfold collapse
  rw [Dependencies.cleanFrom_eq, List.filter_filter]
  congr 1
  refine List.filter_congr fun e _ => ?_
  rw [List.contains_nil, Bool.not_false, Bool.and_true, Bool.and_comm]

theorem mem_collapse {edges : List Edge} {a b : String} :
    (a, b) ∈ collapse separator depths inside edges ↔
      (∃ e ∈ edges, truncatedName separator depths inside e.1 = a ∧
        truncatedName separator depths inside e.2 = b) ∧ a ≠ "" ∧ b ≠ "" ∧ a ≠ b := by
  rw [collapse_eq, List.mem_eraseDups, List.mem_filter, List.mem_map]
  simp only [Prod.mk.injEq, Bool.and_eq_true, bne_iff_ne, and_assoc]

theorem mem_withLeadingParts {names : List String} {part : String} :
    part ∈ withLeadingParts separator names ↔
      ∃ name ∈ names, part ∈ leadingParts separator name := List.mem_flatMap

theorem subset_withLeadingParts (separator : String) (names : List String) :
    names ⊆ withLeadingParts separator names :=
  fun name h => mem_withLeadingParts.2 ⟨name, h, self_mem_leadingParts separator name⟩

end

end DepGraph
