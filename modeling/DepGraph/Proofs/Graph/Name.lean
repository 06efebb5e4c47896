/-
  DepGraph — names that carry a tag.

  * `isExternal_iff`: a name is external iff it starts with one of the tags.
  * `isExternal_append`: what starts with an external name is external.
  * `externalTag_append_ne`: no name carries both tags.
-/
import DepGraph.Graph.Name
import DepGraph.Proofs.Text.Segments

namespace DepGraph

open DepGraph.Text

theorem isExternal_iff {name : String} :
    isExternal name = true ↔
      (∃ rest, name = externalTag ++ rest) ∨ ∃ rest, name = externalModuleTag ++ rest := by
  rw [isExternal, Bool.or_eq_true, startsWith_iff, startsWith_iff]

theorem isExternal_externalTag (name : String) : isExternal (externalTag ++ name) = true :=
  isExternal_iff.2 (.inl ⟨name, rfl⟩)

theorem isExternal_externalModuleTag (name : String) :
    isExternal (externalModuleTag ++ name) = true :=
  isExternal_iff.2 (.inr ⟨name, rfl⟩)

theorem isExternal_append {name : String} (h : isExternal name = true) (rest : String) :
    isExternal (name ++ rest) = true := by
  rw [isExternal_iff] at h ⊢
  rcases h with ⟨r, rfl⟩ | ⟨r, rfl⟩
  · exact .inl ⟨r ++ rest, String.append_assoc ..⟩
  · exact .inr ⟨r ++ rest, String.append_assoc ..⟩

theorem isExternal_markName (name : String) : isExternal (markName name) = true := by
  unfold markName
  split
  · next h => exact h
  · exact isExternal_externalTag name

theorem externalTag_append_ne (name other : String) :
    externalTag ++ name ≠ externalModuleTag ++ other := by
  intro h
  -- the tags differ in their tenth character
  have := congrArg (fun s : String => s.toList[9]?) h
  simp [externalTag, externalModuleTag] at this

end DepGraph
