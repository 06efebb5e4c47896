/-
  DepGraph — exported graphs can be read back.

  The JSON form of a graph holds strings, lists, objects and nulls only.  The keys of
  an object are the names on a level of the containment tree, or those of a map, so no
  key comes twice.  So reading the text gives the form back, and checking the shape of
  each of its members gives what is drawn: an entry of the tree with null below it is a
  leaf, one with an object below it, even an empty one, has a level of its own.

  * `checkEdge`, `checkLevel`: the shapes of an edge and of a containment tree.
  * `Drawing`, `Drawing.ofJson`: what is drawn, as it is read from JSON.
  * `Diagram.numberFree_toJson`, `Diagram.keysDistinct_toJson`: the exported form.
  * `Diagram.ofJson_toJson`: it is read as what is drawn.
  * `export_lossless`: so are the exported texts.
-/
import DepGraph.Export.Data
import DepGraph.Proofs.Containment.Places
import DepGraph.Proofs.Survey.Json

namespace DepGraph

open DepGraph.Json

/-! ## Reading a graph from JSON -/

namespace Json

/-- A pair of strings. -/
def checkEdge : Json → Checked Edge
  | .array [a, b] => Checked.both ((checkString a).under "0") ((checkString b).under "1")
  | _ => .refuse .list

mutual

/-- The level below an entry, or null for a leaf. -/
def checkBelow : Json → Checked (Option Containment)
  | .null => .ok none
  | .object members => (checkMembers members).map some
  | _ => .refuse .map

/-- The entries of a level. -/
def checkMembers : List (String × Json) → Checked Containment
  | [] => .ok .nil
  | (name, v) :: rest =>
    (Checked.both ((checkBelow v).under name) (checkMembers rest)).map fun (below, rest) =>
      Containment.cons name below rest

end

/-- A containment tree. -/
def checkLevel : Json → Checked Containment
  | .object members => checkMembers members
  | _ => .refuse .map

end Json

/-- What is drawn of a graph, without the survey that it was made from. -/
structure Drawing where
  dependencies : Dependencies
  edges : List Edge
  contains : Containment
  containsEdges : List Edge
  deriving DecidableEq

/-- What is drawn, read from JSON. -/
def Drawing.ofJson (v : Json) : Checked Drawing :=
  (Checked.both (Survey.part v "dependencies" ∅ (checkMap (checkList checkString)))
    (Checked.both (Survey.part v "flatDependencies" [] (checkList checkEdge))
      (Checked.both (Survey.part v "contains" .nil checkLevel)
        (Survey.part v "flatContains" [] (checkList checkEdge))))).map
    fun (dependencies, edges, contains, containsEdges) =>
      ⟨dependencies, edges, contains, containsEdges⟩

/-! ## The exported form -/

section
variable {tree : Containment}

/-- The keys of an object are the names on a level. -/
theorem map_fst_containmentMembers (tree : Containment) :
    (containmentMembers tree).map Prod.fst = tree.heads := by
  induction tree with
  | nil => rfl
  | leaf name rest ih => rw [containmentMembers, List.map_cons, ih, Containment.heads_leaf]
  | inner name below rest _ ih =>
    rw [containmentMembers, List.map_cons, ih, Containment.heads_inner]

theorem numberFree_containmentMembers (tree : Containment) :
    ∀ m ∈ containmentMembers tree, NumberFree m.2 := by
  induction tree with
  | nil => exact fun _ hm => absurd hm List.not_mem_nil
  | leaf name rest ih => exact List.forall_mem_cons.2 ⟨.null, ih⟩
  | inner name below rest ihb ihr => exact List.forall_mem_cons.2 ⟨.object ihb, ihr⟩

theorem Containment.Distinct.nodup_heads (h : tree.Distinct) : tree.heads.Nodup := by
  induction tree with
  | nil => exact List.nodup_nil
  | leaf name rest ih => exact List.nodup_cons.2 ⟨h.1, ih h.2⟩
  | inner name below rest _ ih => exact List.nodup_cons.2 ⟨h.1, ih h.2.2⟩

theorem Containment.Distinct.nodup_keys (h : tree.Distinct) :
    ((containmentMembers tree).map Prod.fst).Nodup :=
  map_fst_containmentMembers tree ▸ h.nodup_heads

theorem Containment.Distinct.keysDistinct (h : tree.Distinct) :
    ∀ m ∈ containmentMembers tree, KeysDistinct m.2 := by
  induction tree with
  | nil => exact fun _ hm => absurd hm List.not_mem_nil
  | leaf name rest ih => exact List.forall_mem_cons.2 ⟨.null, ih h.2⟩
  | inner name below rest ihb ihr =>
    obtain ⟨-, hbelow, hrest⟩ := h
    exact List.forall_mem_cons.2 ⟨.object hbelow.nodup_keys (ihb hbelow), ihr hrest⟩

/-- A tree is read back with its leaves as leaves. -/
theorem checkMembers_containmentMembers (tree : Containment) :
    checkMembers (containmentMembers tree) = .ok tree := by
  induction tree with
  | nil => rfl
  | leaf name rest ih =>
    rw [containmentMembers, checkMembers, checkBelow, ih]
    rfl
  | inner name below rest ihb ihr =>
    rw [containmentMembers, checkMembers, checkBelow, ihb, ihr]
    rfl

end

theorem checkList_edgesToJson (edges : List Edge) :
    checkList checkEdge (edgesToJson edges) = .ok edges :=
  checkList_map (f := fun e : Edge => .ofStrings [e.1, e.2]) (fun _ => rfl) edges

theorem numberFree_edgesToJson (edges : List Edge) : NumberFree (edgesToJson edges) := by
  refine .array fun v hv => ?_
  obtain ⟨e, -, rfl⟩ := List.mem_map.1 hv
  exact numberFree_ofStrings _

theorem keysDistinct_ofStrings (names : List String) : KeysDistinct (.ofStrings names) := by
  refine .array fun v hv => ?_
  obtain ⟨s, -, rfl⟩ := List.mem_map.1 hv
  exact .string s

theorem keysDistinct_edgesToJson (edges : List Edge) : KeysDistinct (edgesToJson edges) := by
  refine .array fun v hv => ?_
  obtain ⟨e, -, rfl⟩ := List.mem_map.1 hv
  exact keysDistinct_ofStrings _

theorem keysDistinct_dependenciesToJson (deps : Dependencies) :
    KeysDistinct (dependenciesToJson deps) := by
  refine .object ?_ fun m hm => ?_
  · rw [List.map_map]
    exact deps.nodup_keys
  · obtain ⟨e, -, rfl⟩ := List.mem_map.1 hm
    exact keysDistinct_ofStrings e.2

namespace Diagram

variable (d : Diagram)

theorem numberFree_toJson : NumberFree d.toJson := by
  refine .object ?_
  simp only [List.forall_mem_cons]
  exact ⟨numberFree_dependenciesToJson _, numberFree_edgesToJson _,
    .object (numberFree_containmentMembers _), numberFree_edgesToJson _,
    fun _ hm => absurd hm List.not_mem_nil⟩

/-- The four keys of the exported form. -/
theorem nodup_keys : ["dependencies", "flatDependencies", "contains", "flatContains"].Nodup := by
  decide

theorem keysDistinct_toJson (h : d.contains.Distinct) : KeysDistinct d.toJson := by
  refine .object nodup_keys ?_
  simp only [List.forall_mem_cons]
  exact ⟨keysDistinct_dependenciesToJson _, keysDistinct_edgesToJson _,
    .object h.nodup_keys h.keysDistinct, keysDistinct_edgesToJson _,
    fun _ hm => absurd hm List.not_mem_nil⟩

/-- The exported form of a graph is read as what is drawn. -/
theorem ofJson_toJson : Drawing.ofJson d.toJson =
    .ok ⟨d.dependencies, d.edges, d.contains, d.containsEdges⟩ := by
  have hmember (key : String) (v : Json) (hmem : (key, v) ∈
      [("dependencies", dependenciesToJson d.dependencies),
        ("flatDependencies", edgesToJson d.edges),
        ("contains", .object (containmentMembers d.contains)),
        ("flatContains", edgesToJson d.containsEdges)]) : d.toJson.member? key = some v := by
    refine member?_eq_some ?_ hmem
    exact nodup_keys
  have hdependencies : Survey.part d.toJson "dependencies" ∅ (checkMap (checkList checkString)) =
      .ok d.dependencies :=
    Survey.part_of_member (hmember _ (dependenciesToJson d.dependencies) (by simp))
      (checkMap_dependenciesToJson _)
  have hedges : Survey.part d.toJson "flatDependencies" [] (checkList checkEdge) = .ok d.edges :=
    Survey.part_of_member (hmember _ (edgesToJson d.edges) (by simp)) (checkList_edgesToJson _)
  have hcontains : Survey.part d.toJson "contains" .nil checkLevel = .ok d.contains :=
    Survey.part_of_member (hmember _ (.object (containmentMembers d.contains)) (by simp))
      (checkMembers_containmentMembers _)
  have hcontainsEdges : Survey.part d.toJson "flatContains" [] (checkList checkEdge) =
      .ok d.containsEdges :=
    Survey.part_of_member (hmember _ (edgesToJson d.containsEdges) (by simp))
      (checkList_edgesToJson _)
  rw [Drawing.ofJson, hdependencies, hedges, hcontains, hcontainsEdges]
  rfl

end Diagram

/-! ## Reading exported texts -/

/-- What a script defines: the text without its beginning and its last character. -/
def scriptData (s : List Char) : List Char := (s.drop "const data = ".length).dropLast

theorem scriptData_scriptText (d : Diagram) :
    scriptData (scriptText d).toList = (jsonText d).toList := by
  have hstart : "const data = ".length = "const data = ".toList.length := by decide
  rw [scriptData, scriptText, String.toList_append, String.toList_append, List.append_assoc,
    hstart, List.drop_left]
  exact List.dropLast_concat

/-- **Exported graphs can be read back**: the JSON text of a graph is read as its exported
  form, with the order of all keys, and this form as what is drawn.  The script is the
  same text between the beginning and the end of a definition. -/
theorem export_lossless (d : Diagram) (h : d.contains.Distinct) :
    readSettled? (jsonText d).toList = some d.toJson ∧
      scriptText d = "const data = " ++ jsonText d ++ ";" ∧
      readSettled? (scriptData (scriptText d).toList) = some d.toJson ∧
      Drawing.ofJson d.toJson = .ok ⟨d.dependencies, d.edges, d.contains, d.containsEdges⟩ := by
  have hread : readSettled? (jsonText d).toList = some d.toJson :=
    readSettled?_render exportStyle d.numberFree_toJson (d.keysDistinct_toJson h)
  refine ⟨hread, rfl, ?_, d.ofJson_toJson⟩
  rw [scriptData_scriptText, hread]

/-- Names outside ASCII, leaves, and an entry with an empty level below it. -/
def accented : Diagram where
  survey := default
  dependencies := OrderedMap.ofList [("é/b", ["é/𝑥", "é/b"]), ("é/𝑥", [])]
  edges := [("é/b", "é/𝑥"), ("é/b", "é/b")]
  contains := .inner "é" (.leaf "é/b" (.leaf "é/𝑥" .nil)) (.inner "\"" .nil .nil)
  containsEdges := [("é", "é/b"), ("é", "é/𝑥")]
  separator := "/"

theorem export_lossless_accented :
    accented.contains.Distinct ∧
      ((jsonText accented).toList.all fun c => c.toNat < 0x80) = true ∧
      readSettled? (scriptData (scriptText accented).toList) = some accented.toJson ∧
      (Drawing.ofJson accented.toJson).map (·.contains) =
        .ok (.inner "é" (.leaf "é/b" (.leaf "é/𝑥" .nil)) (.inner "\"" .nil .nil)) := by
  have hdistinct : accented.contains.Distinct := by
    simp [accented, Containment.Distinct]
  obtain ⟨-, -, hscript, hdrawing⟩ := export_lossless accented hdistinct
  refine ⟨hdistinct, ?_, hscript, ?_⟩
  · rw [jsonText, render, String.toList_ofList]
    decide +kernel
  · rw [hdrawing]
    rfl

end DepGraph
