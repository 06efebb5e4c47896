/-
  DepGraph — identifiers of clusters.

  The identifier of a cluster is its name with an underscore for every character that is
  no ASCII letter or digit, so it tells names apart only by their letters and digits.
  Clusters with one identifier are drawn as one.

  * `openedId?`, `clusterIds`: the identifiers in the text of a graph.
  * `Alike`, `clusterId_eq_iff`: names with one identifier.
  * `clusterIds_dotText`: the identifiers are those of the names that hold others.
  * `nodup_clusterIds_iff`: when no two clusters have one identifier.
  * `not_nodup_clusterIds_twinFolders`: two folders with one identifier.
-/
import Mathlib.Data.List.Forall2
import DepGraph.Proofs.Export.Dot

namespace DepGraph

open DepGraph.Text

/-- The identifier of the cluster that a line opens. -/
def openedId? (line : String) : Option String :=
  (dropPrefix? "subgraph " line).map fun after =>
    String.ofList (after.toList.takeWhile (· != ' '))

/-- The identifiers of the clusters of a graph, in order. -/
def clusterIds (text : String) : List String := (quotedLines text).filterMap openedId?

/-- The names of a tree that have a level of their own. -/
def Containment.innerNames (tree : Containment) : List String :=
  (tree.places.filter (·.inner)).map (·.name)

/-! ## Names with one identifier -/

/-- Two characters are the same, or none of them is an ASCII letter or digit. -/
def AlikeChars (c d : Char) : Prop := c = d ∨ c.isAlphanum = false ∧ d.isAlphanum = false

/-- Two names of one length whose characters are alike at every position. -/
def Alike (m n : String) : Prop := List.Forall₂ AlikeChars m.toList n.toList

/-- The character of an identifier. -/
def idChar (c : Char) : Char := if c.isAlphanum then c else '_'

theorem idChar_eq_iff {c d : Char} : idChar c = idChar d ↔ AlikeChars c d := by
  have hscore : ('_').isAlphanum = false := by decide
  unfold idChar AlikeChars
  by_cases hc : c.isAlphanum = true
  · by_cases hd : d.isAlphanum = true
    · simp [hc, hd]
    · have hne : c ≠ d := fun heq => hd (heq ▸ hc)
      have hscore' : c ≠ '_' := fun heq => by simp [heq, hscore] at hc
      simp [hc, hd, hne, hscore']
  · by_cases hd : d.isAlphanum = true
    · have hne : c ≠ d := fun heq => hc (heq ▸ hd)
      have hscore' : '_' ≠ d := fun heq => by simp [← heq, hscore] at hd
      simp [hc, hd, hne, hscore']
    · simp [hc, hd]

theorem toList_clusterId (name : String) :
    (DotStatement.clusterId name).toList = "cluster_".toList ++ name.toList.map idChar := by
  have hid : (String.ofList (name.toList.map idChar)).toList = name.toList.map idChar :=
    String.toList_ofList
  rw [← hid, ← String.toList_append]
  rfl

theorem clusterId_eq_iff {m n : String} :
    DotStatement.clusterId m = DotStatement.clusterId n ↔ Alike m n := by
  rw [← String.toList_inj, toList_clusterId, toList_clusterId, List.append_cancel_left_eq,
    ← List.forall₂_eq_eq_eq, List.forall₂_map_left_iff, List.forall₂_map_right_iff]
  simp only [idChar_eq_iff, Alike]

/-- Names made of ASCII letters, digits and one other character are alike only if
  they are the same. -/
theorem Alike.eq_of_plain {m n : String} (h : Alike m n) {other : Char}
    (hm : ∀ c ∈ m.toList, c.isAlphanum = true ∨ c = other)
    (hn : ∀ c ∈ n.toList, c.isAlphanum = true ∨ c = other) : m = n := by
  rw [Alike] at h
  rw [← String.toList_inj]
  generalize m.toList = s at h hm
  generalize n.toList = t at h hn
  induction h with
  | nil => rfl
  | cons hcd _ ih =>
    rw [List.forall_mem_cons] at hm hn
    rw [ih hm.2 hn.2]
    rcases hcd with rfl | ⟨hc, hd⟩
    · rfl
    · have hc' := hm.1.resolve_left (by simp [hc])
      have hd' := hn.1.resolve_left (by simp [hd])
      rw [hc', hd']

/-! ## The identifiers of a graph -/

theorem space_not_mem_clusterId (name : String) :
    ∀ c ∈ (DotStatement.clusterId name).toList, (c != ' ') = true := by
  have hstart : ∀ c ∈ "cluster_".toList, (c != ' ') = true := by decide
  intro c hc
  rw [toList_clusterId, List.mem_append, List.mem_map] at hc
  rcases hc with hc | ⟨d, -, rfl⟩
  · exact hstart c hc
  · unfold idChar
    by_cases hd : d.isAlphanum = true
    · have hne : d ≠ ' ' := by
        rintro rfl
        revert hd
        decide
      simp [hd, hne]
    · simp [hd]

theorem openedId?_clusterId (name : String) :
    openedId? ("subgraph " ++ (DotStatement.clusterId name ++ " \x7b")) =
      some (DotStatement.clusterId name) := by
  rw [openedId?, dropPrefix?_eq_some_iff.2 rfl, Option.map_some, String.toList_append,
    List.takeWhile_append_of_pos (space_not_mem_clusterId name)]
  simp

theorem openedId?_quotedName (name after : String) :
    openedId? (DotStatement.quotedName name ++ after) = none := by
  simp [openedId?, dropPrefix?, toList_quotedName, List.isPrefixOf?]

theorem openedId?_labelStart (depth : Nat) (after : String) :
    openedId? (labelStart depth ++ after) = none := by
  have hother (rest : String) : openedId? ("st" ++ rest) = none := by
    simp [openedId?, dropPrefix?, List.isPrefixOf?]
  have hstart : "style=\"rounded\"; bgcolor=\"" = "st" ++ "yle=\"rounded\"; bgcolor=\"" := by
    decide
  unfold labelStart
  simp only [hstart, String.append_assoc, hother]

/-- Only a statement that opens a cluster gives an identifier. -/
theorem filterMap_openedId?_text (x : DotStatement) :
    x.text.filterMap openedId? =
      match x with
      | .openCluster name _ => [DotStatement.clusterId name]
      | _ => [] := by
  cases x with
  | node name => simpa [DotStatement.text] using openedId?_quotedName name ""
  | openCluster name depth =>
    rw [text_openCluster]
    simp [openedId?_clusterId, openedId?_labelStart]
  | closeCluster => decide
  | edge e =>
    have hline := openedId?_quotedName e.1 (" -> " ++ DotStatement.quotedName e.2)
    rw [← String.append_assoc] at hline
    simp [DotStatement.text, hline]

theorem innerNames_leaf (name : String) (rest : Containment) :
    (Containment.leaf name rest).innerNames = rest.innerNames := by
  simp [Containment.innerNames, Containment.places]

theorem innerNames_inner (name : String) (below rest : Containment) :
    (Containment.inner name below rest).innerNames =
      name :: (below.innerNames ++ rest.innerNames) := by
  have hunder : (below.places.map (·.under name)).filter (·.inner) =
      (below.places.filter (·.inner)).map (·.under name) := by
    rw [List.filter_map]
    rfl
  simp [Containment.innerNames, Containment.places, hunder, Function.comp_def]

/-- The lines of a tree open one cluster for each name that holds others. -/
theorem filterMap_openedId?_ofContainment (touched : List String) (depth : Nat)
    (tree : Containment) :
    ((DotStatement.ofContainment touched depth tree).flatMap DotStatement.text).filterMap
      openedId? = tree.innerNames.map DotStatement.clusterId := by
  induction tree generalizing depth with
  | nil => rfl
  | leaf name rest ih =>
    rw [DotStatement.ofContainment, List.flatMap_cons, List.filterMap_append,
      filterMap_openedId?_text, ih, innerNames_leaf]
    rfl
  | inner name below rest ihb ihr =>
    have hown : ((if name ∈ touched then [DotStatement.node name] else []).flatMap
        DotStatement.text).filterMap openedId? = [] := by
      split
      · simp [filterMap_openedId?_text]
      · rfl
    rw [innerNames_inner]
    simp [DotStatement.ofContainment, filterMap_openedId?_text, hown, ihb, ihr]

theorem clusterIds_dotText (d : Diagram) :
    clusterIds (dotText d) = d.contains.innerNames.map DotStatement.clusterId := by
  have hedges : ((d.edges.map DotStatement.edge).flatMap DotStatement.text).filterMap
      openedId? = [] := by
    rw [List.filterMap_flatMap, List.flatMap_map]
    simp only [filterMap_openedId?_text]
    exact List.flatMap_eq_nil_iff.2 fun e _ => rfl
  have hstart : ["digraph \x7b", "  overlap=false"].filterMap openedId? = [] := by decide
  have hend : ["\x7d"].filterMap openedId? = [] := by decide
  rw [clusterIds, quotedLines_dotText, List.filterMap_append, List.filterMap_append, hstart, hend,
    DotStatement.ofDiagram, List.flatMap_append, List.filterMap_append,
    filterMap_openedId?_ofContainment, hedges, List.append_nil, List.append_nil, List.nil_append]

/-! ## Trees of names -/

section
variable {separator name : String} {names : List String}

theorem mem_innerNames_ofNames :
    name ∈ (Containment.ofNames separator names).innerNames ↔
      ∃ n ∈ names, PartOf separator n name := by
  rw [Containment.innerNames, List.mem_map]
  constructor
  · rintro ⟨x, hx, rfl⟩
    obtain ⟨hplace, hinner⟩ := List.mem_filter.1 hx
    exact (Containment.inner_iff hplace).1 hinner
  · rintro ⟨n, hn, hpart⟩
    obtain ⟨x, hx, rfl⟩ := Containment.mem_names.1
      (Containment.mem_names_ofNames.2 ⟨hpart.1, n, hn, .inr hpart⟩)
    exact ⟨x, List.mem_filter.2 ⟨hx, (Containment.inner_iff hx).2 ⟨n, hn, hpart⟩⟩, rfl⟩

theorem nodup_innerNames_ofNames (separator : String) (names : List String) :
    (Containment.ofNames separator names).innerNames.Nodup :=
  (Containment.nodup_map_name_places separator names).sublist (List.filter_sublist.map _)

/-- The characters of a part of a name are characters of the name. -/
theorem PartOf.toList_subset {n : String} (h : PartOf separator n name) :
    name.toList ⊆ n.toList := by
  obtain ⟨rest, rfl⟩ := exists_append_of_mem_leadingParts (mem_leadingParts.2 (.inr h.2))
  simp

end

/-- **When no two clusters have one identifier**: the clusters of a graph are those of
  the names that hold others, and no two of them have one identifier iff no two of these
  names are alike.  In the tree of some names these are their parts, each once; so their
  identifiers differ iff no two different parts are alike, as is so if the names are made
  of ASCII letters, digits and one other character. -/
theorem nodup_clusterIds_iff (d : Diagram) :
    ((clusterIds (dotText d)).Nodup ↔ d.contains.innerNames.Pairwise fun m n => ¬ Alike m n) ∧
      ∀ separator names, d.contains = .ofNames separator names →
        ((clusterIds (dotText d)).Nodup ↔ ∀ n ∈ names, ∀ n' ∈ names, ∀ part part',
          PartOf separator n part → PartOf separator n' part' → Alike part part' →
            part = part') ∧
        ∀ other, (∀ n ∈ names, ∀ c ∈ n.toList, c.isAlphanum = true ∨ c = other) →
          (clusterIds (dotText d)).Nodup := by
  rw [clusterIds_dotText]
  constructor
  · rw [List.Nodup, List.pairwise_map]
    simp only [ne_eq, clusterId_eq_iff]
  · intro separator names htree
    have hiff : (d.contains.innerNames.map DotStatement.clusterId).Nodup ↔
        ∀ n ∈ names, ∀ n' ∈ names, ∀ part part', PartOf separator n part →
          PartOf separator n' part' → Alike part part' → part = part' := by
      rw [htree, List.nodup_map_iff_inj_on (nodup_innerNames_ofNames separator names)]
      simp only [clusterId_eq_iff, mem_innerNames_ofNames]
      constructor
      · intro h n hn n' hn' part part' hpart hpart'
        exact h part ⟨n, hn, hpart⟩ part' ⟨n', hn', hpart'⟩
      · rintro h part ⟨n, hn, hpart⟩ part' ⟨n', hn', hpart'⟩
        exact h n hn n' hn' part part' hpart hpart'
    refine ⟨hiff, fun other hplain => hiff.2 fun n hn n' hn' part part' hpart hpart' halike => ?_⟩
    exact halike.eq_of_plain (fun c hc => hplain n hn c (hpart.toList_subset hc))
      fun c hc => hplain n' hn' c (hpart'.toList_subset hc)

/-- The graph of two folders within a third one, where only slashes stand beside letters. -/
def plainFolders : Diagram :=
  { (default : Diagram) with contains := .ofNames "/" ["lib/core/a", "lib/ui/b"] }

theorem nodup_clusterIds_plainFolders :
    plainFolders.contains = .ofNames "/" ["lib/core/a", "lib/ui/b"] ∧
      (∀ n ∈ ["lib/core/a", "lib/ui/b"], ∀ c ∈ n.toList, c.isAlphanum = true ∨ c = '/') ∧
      clusterIds (dotText plainFolders) = ["cluster_lib", "cluster_lib_core", "cluster_lib_ui"] ∧
      (clusterIds (dotText plainFolders)).Nodup := by
  have hplain : ∀ n ∈ ["lib/core/a", "lib/ui/b"], ∀ c ∈ n.toList,
      c.isAlphanum = true ∨ c = '/' := by decide
  have hids : clusterIds (dotText plainFolders) =
      ["cluster_lib", "cluster_lib_core", "cluster_lib_ui"] := by
    rw [clusterIds_dotText]
    decide
  obtain ⟨-, hnames⟩ := nodup_clusterIds_iff plainFolders
  exact ⟨rfl, hplain, hids, (hnames "/" ["lib/core/a", "lib/ui/b"] rfl).2 '/' hplain⟩

/-- The graph of two folders whose names differ by a hyphen and an underscore. -/
def twinFolders : Diagram :=
  { (default : Diagram) with contains := .ofNames "/" ["my-lib/a", "my_lib/b"] }

/-- The two folders have clusters of their own, with one identifier. -/
theorem not_nodup_clusterIds_twinFolders :
    twinFolders.contains.innerNames = ["my-lib", "my_lib"] ∧
      clusterIds (dotText twinFolders) = ["cluster_my_lib", "cluster_my_lib"] ∧
      ¬ (clusterIds (dotText twinFolders)).Nodup := by
  have hnames : twinFolders.contains.innerNames = ["my-lib", "my_lib"] := by decide
  have hids : clusterIds (dotText twinFolders) = ["cluster_my_lib", "cluster_my_lib"] := by
    rw [clusterIds_dotText, hnames]
    decide
  refine ⟨hnames, hids, ?_⟩
  rw [hids]
  decide

end DepGraph
