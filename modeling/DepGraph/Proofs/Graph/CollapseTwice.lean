/-
  DepGraph — collapsing twice.

  A name within the tree is cut to a leading part of itself, which lies within the
  tree as well, and is short enough.  A name outside the tree may be cut to one that
  lies within it; there it is kept to the other depth, and the second collapse cuts
  it again if it is longer than that.

  * `truncate_truncate`, `truncate_eq_self_iff`: names that are short enough.
  * `truncate_mem_withLeadingParts`: names within the tree stay there.
  * `StaysCut`, `truncatedName_twice_iff`: when a name is cut once and for all.
  * `collapse_eq_self_iff`: the edge lists that collapsing does not change.
  * `collapse_collapse_iff`: when the second collapse changes nothing.
  * `collapse_collapse_besideFile`: a name that is cut twice.
-/
import Mathlib.Data.List.TakeDrop
import DepGraph.Proofs.Graph.Collapse

namespace DepGraph

open DepGraph.Text

/-! ## Names that are short enough -/

section
variable {separator name part : String} {depth : Int} {names : List String}

theorem truncate_of_pos (h : 0 < depth) :
    truncate separator depth name = join separator ((split separator name).take depth.toNat) := by
  rw [truncate, if_neg (Int.ne_of_gt h), takeSegments, if_pos (Int.le_of_lt h)]

theorem truncate_zero : truncate separator 0 name = name := if_pos rfl

theorem split_truncate (h : 0 < depth) :
    split separator (truncate separator depth name) =
      (split separator name).take depth.toNat := by
  rw [truncate_of_pos h, split_join_take separator name (by omega)]

/-- A name is kept whole iff it has no more segments than asked for. -/
theorem truncate_eq_self_iff (h : 0 ≤ depth) :
    truncate separator depth name = name ↔
      depth = 0 ∨ (split separator name).length ≤ depth.toNat := by
  rcases Int.lt_or_eq_of_le h with hpos | rfl
  · constructor
    · intro hself
      have hsplit : split separator (truncate separator depth name) =
          (split separator name).take depth.toNat := split_truncate hpos
      rw [hself] at hsplit
      exact .inr ((List.take_eq_self_iff _).1 hsplit.symm)
    · rintro (rfl | hlen)
      · exact truncate_zero
      · rw [truncate_of_pos hpos, List.take_of_length_le hlen, join_split]
  · exact iff_of_true truncate_zero (.inl rfl)

theorem truncate_truncate (h : 0 ≤ depth) :
    truncate separator depth (truncate separator depth name) = truncate separator depth name := by
  rcases Int.lt_or_eq_of_le h with hpos | rfl
  · rw [truncate_eq_self_iff h, split_truncate hpos]
    exact .inr (List.length_take_le _ _)
  · exact truncate_zero

theorem truncate_mem_leadingParts (h : 0 ≤ depth) :
    truncate separator depth name ∈ leadingParts separator name := by
  rcases Int.lt_or_eq_of_le h with hpos | rfl
  · rw [truncate_of_pos hpos]
    exact join_take_mem_leadingParts separator name (by omega)
  · rw [truncate_zero]
    exact self_mem_leadingParts separator name

/-- Names within the tree are cut to names within it. -/
theorem truncate_mem_withLeadingParts (h : 0 ≤ depth)
    (hname : name ∈ withLeadingParts separator names) :
    truncate separator depth name ∈ withLeadingParts separator names := by
  obtain ⟨k, hk, hpart⟩ := mem_withLeadingParts.1 hname
  exact mem_withLeadingParts.2 ⟨k, hk, leadingParts_subset hpart (truncate_mem_leadingParts h)⟩

end

/-! ## Names cut twice -/

/-- A name outside the tree is not cut to a name within it that has more segments
  than names within the tree keep. -/
def StaysCut (separator : String) (depths : Depths) (inside : List String) (name : String) : Prop :=
  name ∉ withLeadingParts separator inside →
    truncatedName separator depths inside name ∈ withLeadingParts separator inside →
      depths.inside = 0 ∨
        (split separator (truncatedName separator depths inside name)).length ≤
          depths.inside.toNat

section
variable {separator : String} {depths : Depths} {inside : List String} {name : String}

theorem truncatedName_of_mem (h : name ∈ withLeadingParts separator inside) :
    truncatedName separator depths inside name = truncate separator depths.inside name := by
  rw [truncatedName, shorten, if_pos h]

theorem truncatedName_of_not_mem (h : name ∉ withLeadingParts separator inside) :
    truncatedName separator depths inside name = truncate separator depths.outside name := by
  rw [truncatedName, shorten, if_neg h]

/-- A name is cut once and for all, unless it lies outside the tree and is cut to a
  name within it that is still too long. -/
theorem truncatedName_twice_iff (hin : 0 ≤ depths.inside) (hout : 0 ≤ depths.outside) :
    truncatedName separator depths inside (truncatedName separator depths inside name) =
        truncatedName separator depths inside name ↔ StaysCut separator depths inside name := by
  by_cases hname : name ∈ withLeadingParts separator inside
  · have hcut := truncate_mem_withLeadingParts hin hname
    refine iff_of_true ?_ fun hnot => absurd hname hnot
    rw [truncatedName_of_mem hname, truncatedName_of_mem hcut, truncate_truncate hin]
  · by_cases hcut : truncatedName separator depths inside name ∈ withLeadingParts separator inside
    · rw [truncatedName_of_mem hcut, truncate_eq_self_iff hin]
      exact ⟨fun hlen _ _ => hlen, fun hstays => hstays hname hcut⟩
    · refine iff_of_true ?_ fun _ hmem => absurd hmem hcut
      rw [truncatedName_of_not_mem hcut, truncatedName_of_not_mem hname, truncate_truncate hout]

/-- No name is cut twice if names within the tree are kept whole, or to no smaller
  depth than the others. -/
theorem staysCut_of_le (hout : 0 ≤ depths.outside)
    (h : depths.inside = 0 ∨ depths.outside ≤ depths.inside) :
    StaysCut separator depths inside name := by
  intro hname hcut
  refine h.imp_right fun hle => ?_
  rw [truncatedName_of_not_mem hname] at hcut ⊢
  rcases Int.lt_or_eq_of_le hout with hpos | hzero
  · rw [split_truncate hpos]
    exact Nat.le_trans (List.length_take_le _ _) (Int.toNat_le_toNat hle)
  · rw [← hzero, truncate_zero] at hcut
    exact absurd hcut hname

end

/-! ## Edges collapsed twice -/

theorem Dependencies.cleanFrom_sublist (seen edges : List Edge) :
    (cleanFrom seen edges).Sublist edges := by
  induction edges generalizing seen with
  | nil => exact List.Sublist.refl _
  | cons head rest ih =>
    unfold cleanFrom
    split
    · exact (ih seen).cons head
    · exact (ih (head :: seen)).cons_cons head

theorem Dependencies.cleanFrom_eq_self {seen edges : List Edge} (hnodup : edges.Nodup)
    (hnew : ∀ e ∈ edges, e.1 ≠ e.2 ∧ e ∉ seen) : cleanFrom seen edges = edges := by
  induction edges generalizing seen with
  | nil => rfl
  | cons head rest ih =>
    obtain ⟨hhead, hrest⟩ := List.nodup_cons.1 hnodup
    rw [List.forall_mem_cons] at hnew
    rw [cleanFrom, if_neg (not_or.2 hnew.1), ih hrest fun e he => ?_]
    have hne : e ≠ head := fun heq => hhead (heq ▸ he)
    exact ⟨(hnew.2 e he).1, fun hmem => (hnew.2 e he).2 ((List.mem_cons.1 hmem).resolve_left hne)⟩

/-- The edge between the names to which the ends of an edge are cut. -/
def cutEdge (separator : String) (depths : Depths) (inside : List String) (e : Edge) : Edge :=
  (truncatedName separator depths inside e.1, truncatedName separator depths inside e.2)

/-- The ends of an edge are cut to different names, none of them empty. -/
def IsKept (separator : String) (depths : Depths) (inside : List String) (e : Edge) : Prop :=
  truncatedName separator depths inside e.1 ≠ "" ∧ truncatedName separator depths inside e.2 ≠ "" ∧
    truncatedName separator depths inside e.1 ≠ truncatedName separator depths inside e.2

theorem collapse_eq_cleanFrom (separator : String) (depths : Depths) (inside : List String)
    (edges : List Edge) :
    collapse separator depths inside edges =
      Dependencies.cleanFrom []
        ((edges.map (cutEdge separator depths inside)).filter fun e => e.1 != "" && e.2 != "") :=
  rfl

section
variable {separator : String} {depths : Depths} {inside : List String} {edges : List Edge}

theorem forall_mem_collapse {P : Edge → Prop} :
    (∀ e ∈ collapse separator depths inside edges, P e) ↔
      ∀ e ∈ edges, IsKept separator depths inside e → P (cutEdge separator depths inside e) := by
  constructor
  · intro h e he hkept
    exact h _ (mem_collapse.2 ⟨⟨e, he, rfl, rfl⟩, hkept⟩)
  · rintro h ⟨a, b⟩ hmem
    obtain ⟨⟨e, he, rfl, rfl⟩, hkept⟩ := mem_collapse.1 hmem
    exact h e he hkept

theorem map_eq_self_iff {f : Edge → Edge} : edges.map f = edges ↔ ∀ e ∈ edges, f e = e := by
  conv_lhs => rhs; rw [← List.map_id edges]
  exact List.map_inj_left

/-- Edges without repetitions, self-edges and empty names are not changed by
  collapsing iff none of their ends is cut. -/
theorem collapse_eq_self_iff (hnodup : edges.Nodup)
    (hclean : ∀ e ∈ edges, e.1 ≠ "" ∧ e.2 ≠ "" ∧ e.1 ≠ e.2) :
    collapse separator depths inside edges = edges ↔
      ∀ e ∈ edges, cutEdge separator depths inside e = e := by
  rw [← map_eq_self_iff, collapse_eq_cleanFrom]
  constructor
  · intro hself
    -- as many edges are left as there were, so none is left out
    have hsub : edges.Sublist (edges.map (cutEdge separator depths inside)) := by
      conv_lhs => rw [← hself]
      exact (Dependencies.cleanFrom_sublist ..).trans List.filter_sublist
    exact (hsub.eq_of_length (List.length_map _).symm).symm
  · intro hmap
    have hfilter : (edges.filter fun e => e.1 != "" && e.2 != "") = edges :=
      List.filter_eq_self.2 fun e he => by simp [hclean e he]
    rw [hmap, hfilter]
    exact Dependencies.cleanFrom_eq_self hnodup fun e he =>
      ⟨(hclean e he).2.2, List.not_mem_nil⟩

theorem cutEdge_twice_iff (hin : 0 ≤ depths.inside) (hout : 0 ≤ depths.outside) {e : Edge} :
    cutEdge separator depths inside (cutEdge separator depths inside e) =
        cutEdge separator depths inside e ↔
      StaysCut separator depths inside e.1 ∧ StaysCut separator depths inside e.2 := by
  rw [cutEdge, cutEdge, Prod.mk.injEq, truncatedName_twice_iff hin hout,
    truncatedName_twice_iff hin hout]

end

/-- **When the second collapse changes nothing**: if something separates segments and
  the depths are natural, edges can be collapsed, and collapsed again, and the second
  collapse changes nothing iff no end of an edge that is kept lies outside the tree
  and is cut to a name within it that is still too long.  There is no such end if
  names within the tree are kept whole, or to no smaller depth than the others. -/
theorem collapse_collapse_iff (separator : String) (depths : Depths) (inside : List String)
    (edges : List Edge) (hsep : separator ≠ "") (hin : 0 ≤ depths.inside)
    (hout : 0 ≤ depths.outside) :
    lacksSeparator separator depths inside edges = false ∧
    lacksSeparator separator depths inside (collapse separator depths inside edges) = false ∧
    (collapse separator depths inside (collapse separator depths inside edges) =
        collapse separator depths inside edges ↔
      ∀ e ∈ edges, IsKept separator depths inside e →
        StaysCut separator depths inside e.1 ∧ StaysCut separator depths inside e.2) ∧
    (depths.inside = 0 ∨ depths.outside ≤ depths.inside →
      collapse separator depths inside (collapse separator depths inside edges) =
        collapse separator depths inside edges) := by
  have htwice : collapse separator depths inside (collapse separator depths inside edges) =
      collapse separator depths inside edges ↔
        ∀ e ∈ edges, IsKept separator depths inside e →
          StaysCut separator depths inside e.1 ∧ StaysCut separator depths inside e.2 := by
    have hnodup : (collapse separator depths inside edges).Nodup := Dependencies.nodup_cleanFrom ..
    have hclean : ∀ e ∈ collapse separator depths inside edges,
        e.1 ≠ "" ∧ e.2 ≠ "" ∧ e.1 ≠ e.2 := fun e he => (mem_collapse.1 he).2
    rw [collapse_eq_self_iff hnodup hclean, forall_mem_collapse]
    simp only [cutEdge_twice_iff hin hout]
  refine ⟨by simp [lacksSeparator, hsep], by simp [lacksSeparator, hsep], htwice, fun hle => ?_⟩
  exact htwice.2 fun e _ _ => ⟨staysCut_of_le hout hle, staysCut_of_le hout hle⟩

/-- Files of two folders, one of which refers to something outside the tree. -/
def fileEdges : List Edge :=
  [("app/core/a", "app/core/b"), ("app/core/a", "ui/c"), ("ui/c", "*external*/react/dom")]

theorem collapse_collapse_fileEdges :
    "/" ≠ "" ∧ (0 : Int) ≤ 1 ∧ (0 : Int) ≤ 2 ∧
      collapse "/" ⟨1, 2⟩ ["app/core/a", "app/core/b", "ui/c"] fileEdges =
        [("app", "ui"), ("ui", "*external*/react")] ∧
      collapse "/" ⟨1, 2⟩ ["app/core/a", "app/core/b", "ui/c"]
        [("app", "ui"), ("ui", "*external*/react")] =
          [("app", "ui"), ("ui", "*external*/react")] := by
  have hsep : "/" ≠ "" := by decide
  have hin : (0 : Int) ≤ 1 := by decide
  have hout : (0 : Int) ≤ 2 := by decide
  have honce : collapse "/" ⟨1, 2⟩ ["app/core/a", "app/core/b", "ui/c"] fileEdges =
      [("app", "ui"), ("ui", "*external*/react")] := by decide +kernel
  -- nothing outside the tree begins with a folder within it
  have hstays : ∀ e ∈ fileEdges, IsKept "/" ⟨1, 2⟩ ["app/core/a", "app/core/b", "ui/c"] e →
      StaysCut "/" ⟨1, 2⟩ ["app/core/a", "app/core/b", "ui/c"] e.1 ∧
        StaysCut "/" ⟨1, 2⟩ ["app/core/a", "app/core/b", "ui/c"] e.2 := by
    unfold IsKept StaysCut
    decide +kernel
  obtain ⟨-, -, htwice, -⟩ := collapse_collapse_iff "/" ⟨1, 2⟩
    ["app/core/a", "app/core/b", "ui/c"] fileEdges hsep hin hout
  rw [honce] at htwice
  exact ⟨hsep, hin, hout, honce, htwice.2 hstays⟩

/-- A name outside the tree that begins with a folder within it. -/
def besideFile : List Edge := [("a/b/d", "x/y")]

/-- Such a name is cut to the folder, and then to the depth of names within the tree. -/
theorem collapse_collapse_besideFile :
    ¬ StaysCut "/" ⟨1, 2⟩ ["a/b/c"] "a/b/d" ∧
      collapse "/" ⟨1, 2⟩ ["a/b/c"] besideFile = [("a/b", "x/y")] ∧
      collapse "/" ⟨1, 2⟩ ["a/b/c"] (collapse "/" ⟨1, 2⟩ ["a/b/c"] besideFile) ≠
        collapse "/" ⟨1, 2⟩ ["a/b/c"] besideFile := by
  have honce : collapse "/" ⟨1, 2⟩ ["a/b/c"] besideFile = [("a/b", "x/y")] := by decide +kernel
  have htwice : collapse "/" ⟨1, 2⟩ ["a/b/c"] [("a/b", "x/y")] = [("a", "x/y")] := by
    decide +kernel
  refine ⟨?_, honce, ?_⟩
  · unfold StaysCut
    decide +kernel
  · rw [honce, htwice]
    decide

end DepGraph
