/-
  DepGraph — when the two views agree.

  If modules have files of their own and no name can be taken for another one,
  a name is translated to a file exactly if it is the module of that file, and
  back.  So the two completed views state the same dependencies between modules
  that have files.

  * `NamesApart`: the condition on reports; `Survey.Apart`: what it says of their
    survey.
  * `Survey.toModule_eq_iff`, `Survey.toPath_eq_iff`: what is translated to a
    module, and to its file.
  * `Survey.derive_views_agree`: the views agree on what lies within the tree.
-/
import DepGraph.Proofs.Graph.Name
import DepGraph.Proofs.Survey.Idempotence
import DepGraph.Proofs.Survey.Reports

namespace DepGraph

open DepGraph.Text Dependencies

/-- Reports of known files whose names are told apart.  What modules depend on may
  carry a tag. -/
structure NamesApart (r : Resolver) (reports : List FileReport) : Prop where
  known : ∀ f ∈ reports, f.file ∈ r.files
  /-- No file has a tagged name. -/
  files : ∀ path ∈ r.files, isExternal path = false
  /-- No module is reported by two files. -/
  owner : ∀ f ∈ reports, ∀ g ∈ reports, ∀ name ∈ f.report.module?,
    name ∈ g.report.module? → f.file = g.file
  /-- No module has the name of a file, or a tagged name. -/
  modules : ∀ f ∈ reports, ∀ name ∈ f.report.module?, name ∉ r.files ∧ isExternal name = false
  /-- Modules depend on nothing that has the name of a file. -/
  targets : ∀ f ∈ reports, ∀ e ∈ f.report.modules.entries, ∀ target ∈ e.2, target ∉ r.files

namespace Survey

/-- The names of a survey are told apart. -/
structure Apart (files : List String) (s : Survey) : Prop where
  untagged : ∀ path ∈ files, isExternal path = false
  owner : ∀ p q m, s.moduleOf.get? p = some m → s.moduleOf.get? q = some m → p = q
  declared : ∀ p m, s.moduleOf.get? p = some m → p ∈ files ∧ m ∉ files ∧ isExternal m = false
  referred : ∀ p, ∀ x ∈ s.paths.targets p, x ∈ files ∨ ∃ raw, x = externalTag ++ raw
  stated : ∀ m, ∀ d ∈ s.modules.targets m, d ∉ files

theorem apart_ofReports {r : Resolver} {reports : List FileReport} (h : NamesApart r reports)
    (separator : String) : (ofReports r separator reports).Apart r.files where
  untagged := h.files
  owner p q m hp hq := by
    obtain ⟨f, hf, rfl, hfm⟩ := exists_report_of_moduleOf r separator reports hp
    obtain ⟨g, hg, rfl, hgm⟩ := exists_report_of_moduleOf r separator reports hq
    exact h.owner f hf g hg m hfm hgm
  declared p m hp := by
    obtain ⟨f, hf, rfl, hfm⟩ := exists_report_of_moduleOf r separator reports hp
    exact ⟨h.known f hf, h.modules f hf m hfm⟩
  referred p x hx := by
    rw [targets_paths_ofReports, List.mem_flatMap] at hx
    obtain ⟨f, -, hx⟩ := hx
    split at hx
    · obtain ⟨raw, -, rfl⟩ := List.mem_map.1 hx
      exact (r.resolve_cases raw f.directory).imp id fun heq => ⟨raw, heq⟩
    · exact absurd hx List.not_mem_nil
  stated m d hd := by
    rw [targets_modules_ofReports, List.mem_flatMap] at hd
    obtain ⟨f, hf, hd⟩ := hd
    obtain ⟨l, hl, hdl⟩ := mem_targets.1 hd
    exact h.targets f hf _ (OrderedMap.get?_eq_some_iff.1 hl) d hdl

section
variable {files : List String} {s : Survey}

/-- What a file depends on is translated to a module iff it is the file of the
  module. -/
theorem toModule_eq_iff (h : s.Apart files) {p q m x : String} (hx : x ∈ s.paths.targets p)
    (hm : s.moduleOf.get? q = some m) : s.toModule x = m ↔ x = q := by
  unfold toModule
  constructor
  · intro heq
    cases hxm : s.moduleOf.get? x with
    | some m' =>
      rw [hxm] at heq
      subst heq
      exact h.owner x q m' hxm hm
    | none =>
      -- `x` declares no module, so it would have to be the name `m` or its tagged form
      rw [hxm] at heq
      obtain ⟨-, hfile, hext⟩ := h.declared q m hm
      cases hdrop : dropPrefix? externalModuleTag x with
      | none =>
        rw [hdrop] at heq
        obtain rfl : x = m := heq
        rcases h.referred p x hx with hx | ⟨raw, rfl⟩
        · exact absurd hx hfile
        · rw [isExternal_externalTag] at hext
          cases hext
      | some rest =>
        obtain rfl := dropPrefix?_eq_some_iff.1 hdrop
        rcases h.referred p _ hx with hx | ⟨raw, hraw⟩
        · have := h.untagged _ hx
          rw [isExternal_externalModuleTag] at this
          cases this
        · exact absurd hraw.symm (externalTag_append_ne raw rest)
  · rintro rfl
    rw [hm]

/-- What a module depends on is translated to the file of a module iff it is that
  module. -/
theorem toPath_eq_iff (h : s.Apart files) (hpath : ∀ m p, s.pathOf.get? m = some p →
    s.moduleOf.get? p = some m) {m d n q : String} (hd : d ∈ s.modules.targets m)
    (hq : s.pathOf.get? n = some q) : s.toPath s.paths d = q ↔ d = n := by
  unfold toPath
  constructor
  · intro heq
    have hqn := hpath n q hq
    cases hdp : s.pathOf.get? d with
    | some p =>
      rw [hdp] at heq
      obtain rfl : p = q := heq
      exact Option.some.inj ((hpath d p hdp).symm.trans hqn)
    | none =>
      -- `d` is no module, so it would have to be the file `q`, or `q` would be tagged
      rw [hdp] at heq
      obtain ⟨hfile, -, -⟩ := h.declared q n hqn
      dsimp only at heq
      split at heq
      · subst heq
        exact absurd hfile (h.stated m d hd)
      · have hext := h.untagged q hfile
        rw [← heq, isExternal_externalModuleTag] at hext
        cases hext
  · rintro rfl
    rw [hq]

theorem mem_derive_iff_of_apart {collected : List String} (hc : Collected collected s)
    (h : s.Apart files) {m₁ p₁ m₂ p₂ : String} (h₁ : s.pathOf.get? m₁ = some p₁)
    (h₂ : s.pathOf.get? m₂ = some p₂) :
    m₂ ∈ s.derive.modules.targets m₁ ↔ p₂ ∈ s.derive.paths.targets p₁ := by
  have hown₁ := hc.pathOf m₁ p₁ h₁
  have hown₂ := hc.pathOf m₂ p₂ h₂
  rw [mem_modules_derive, mem_paths_derive hc h₁]
  constructor
  · rintro (hm | ⟨q, hq, x, hx, heq⟩)
    · exact .inr ⟨m₂, hm, (toPath_eq_iff h hc.pathOf hm h₂).2 rfl⟩
    · obtain rfl := h.owner q p₁ m₁ hq hown₁
      obtain rfl := (toModule_eq_iff h hx hown₂).1 heq
      exact .inl hx
  · rintro (hp | ⟨d, hd, heq⟩)
    · exact .inr ⟨p₁, hown₁, p₂, hp, (toModule_eq_iff h hp hown₂).2 rfl⟩
    · obtain rfl := (toPath_eq_iff h hc.pathOf hd h₂).1 heq
      exact .inl hd

end

/-- **The two completed views agree** on modules that have files: one depends on
  another one iff its file depends on the other one's file. -/
theorem derive_views_agree (r : Resolver) (separator : String) (reports : List FileReport)
    (hnodup : (reports.map (·.file)).Nodup) (h : NamesApart r reports) :
    let s := (ofReports r separator reports).derive
    ∀ m₁ p₁ m₂ p₂, s.pathOf.get? m₁ = some p₁ → s.pathOf.get? m₂ = some p₂ →
      (m₂ ∈ s.modules.targets m₁ ↔ p₂ ∈ s.paths.targets p₁) := by
  intro s m₁ p₁ m₂ p₂ h₁ h₂
  obtain ⟨collected, hc⟩ := collected_ofReports r separator hnodup
  exact mem_derive_iff_of_apart hc (apart_ofReports h separator) h₁ h₂

/-- One module states that it depends on the other one, whose file refers back. -/
theorem derive_views_agree_ownModules :
    (ownModules.map (·.file)).Nodup ∧ NamesApart (byName ["w.json", "a.json"]) ownModules ∧
      let s := (ofReports (byName ["w.json", "a.json"]) "/" ownModules).derive
      s.pathOf.get? "web" = some "w.json" ∧ s.pathOf.get? "api" = some "a.json" ∧
        "api" ∈ s.modules.targets "web" ∧ "a.json" ∈ s.paths.targets "w.json" ∧
        "w.json" ∈ s.paths.targets "a.json" ∧ "web" ∈ s.modules.targets "api" := by
  have hnodup : (ownModules.map (·.file)).Nodup := by decide
  have happart : NamesApart (byName ["w.json", "a.json"]) ownModules :=
    ⟨by decide, by decide, by decide, by decide, by decide⟩
  have hagree := derive_views_agree (byName ["w.json", "a.json"]) "/" ownModules hnodup happart
  have hweb : (ofReports (byName ["w.json", "a.json"]) "/" ownModules).derive.pathOf.get? "web" =
      some "w.json" := by decide +kernel
  have hapi : (ofReports (byName ["w.json", "a.json"]) "/" ownModules).derive.pathOf.get? "api" =
      some "a.json" := by decide +kernel
  have hstated : "api" ∈ (ofReports (byName ["w.json", "a.json"]) "/"
      ownModules).derive.modules.targets "web" := by decide +kernel
  have hreferred : "w.json" ∈ (ofReports (byName ["w.json", "a.json"]) "/"
      ownModules).derive.paths.targets "a.json" := by decide +kernel
  exact ⟨hnodup, happart, hweb, hapi, hstated, (hagree _ _ _ _ hweb hapi).1 hstated, hreferred,
    (hagree _ _ _ _ hapi hweb).2 hreferred⟩

end Survey

end DepGraph
