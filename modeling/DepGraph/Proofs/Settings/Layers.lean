/-
  DepGraph — layers of settings.

  A configuration file that is read sets nothing but settings, and each to a value of its
  kind.  Of two layers, a setting has the value of the upper one if that says something,
  else the value of the lower one, and its default if neither sets it.

  * `Value.HasKind`: the values of a kind; `hasKind_of_checkKind`.
  * `Layer.IsProper`: every value is that of a setting; `isProper_of_load`.
  * `Layer.settings_cover`: the settings of a layer that is laid over another one.
-/
import Mathlib.Data.List.Nodup
import DepGraph.Proofs.Attempt
import DepGraph.Proofs.OrderedMap
import DepGraph.Settings.Config

namespace DepGraph

open DepGraph.Attempt DepGraph.Json

/-! ## Names -/

theorem Setting.mem_all (s : Setting) : s ∈ Setting.all := by cases s <;> decide

theorem Setting.ofName?_name (s : Setting) : Setting.ofName? s.name = some s := by
  cases s <;> decide

theorem Setting.name_inj {s t : Setting} (h : s.name = t.name) : s = t :=
  Option.some.inj (s.ofName?_name.symm.trans ((congrArg Setting.ofName? h).trans t.ofName?_name))

theorem nameFault?_name (s : Setting) : Layer.nameFault? s.name = none := by
  cases s <;> decide

/-! ## Files -/

namespace Json.Checked

theorem both_eq_ok_iff {α β : Type} {a : Checked α} {b : Checked β} {x : α × β} :
    both a b = .ok x ↔ a = .ok x.1 ∧ b = .ok x.2 := by
  obtain ⟨x, y⟩ := x
  cases a <;> cases b <;> simp [both]

/-- The values of a list come from its members. -/
theorem mem_of_all_eq_ok {α : Type} {l : List (Checked α)} {values : List α}
    (h : all l = .ok values) {v : α} (hv : v ∈ values) : .ok v ∈ l := by
  induction l generalizing values with
  | nil =>
    obtain rfl : [] = values := Except.ok.inj h
    exact absurd hv List.not_mem_nil
  | cons a rest ih =>
    obtain ⟨⟨first, others⟩, hboth, rfl⟩ := map_eq_ok_iff.1 h
    obtain ⟨ha, hrest⟩ := both_eq_ok_iff.1 hboth
    rcases List.mem_cons.1 hv with rfl | hv
    · exact ha ▸ List.mem_cons_self
    · exact List.mem_cons_of_mem _ (ih hrest hv)

end Json.Checked

/-- The values of a kind. -/
inductive Value.HasKind : Value → SettingKind → Prop
  | text (s : String) : HasKind (.json (.string s)) .text
  | texts (l : List String) : HasKind (.json (.ofStrings l)) .texts
  | flag (b : Bool) : HasKind (.json (.bool b)) .flag
  | path (p : Path) : HasKind (.path p) .path
  | depth (s : String) : HasKind (.json (.string s)) .depth
  | options (m : OrderedMap String Json) : HasKind (.json (.object m.entries)) .options

/-- A value that passes the check of a kind is of this kind. -/
theorem hasKind_of_checkKind {v : Json} {kind : SettingKind} {value : Value}
    (h : checkKind v kind = .ok value) : value.HasKind kind := by
  cases kind
  all_goals
    obtain ⟨x, -, rfl⟩ := map_eq_ok_iff.1 h
    constructor

theorem hasKind_of_checkSetting {file : Json} {s : Setting} {e : String × Value}
    (h : checkSetting file s = .ok (some e)) : e.1 = s.name ∧ e.2.HasKind s.kind := by
  unfold checkSetting at h
  split at h
  · cases h
  · cases h
  · next key v _ =>
    obtain ⟨value, hvalue, he⟩ := map_eq_ok_iff.1 h
    obtain rfl := Option.some.inj he
    exact ⟨rfl, hasKind_of_checkKind (mapError_eq_ok_iff.1 hvalue)⟩

/-- Every value of a layer is one of a setting, and of its kind. -/
def Layer.IsProper (layer : Layer) : Prop :=
  ∀ key v, layer.get? key = some v → ∃ s : Setting, s.name = key ∧ v.HasKind s.kind

theorem isProper_empty : Layer.IsProper ∅ := nofun

theorem isProper_of_layerOf {file : Json} {layer : Layer} (h : layerOf file = .ok layer) :
    layer.IsProper := by
  unfold layerOf at h
  split at h
  · obtain ⟨⟨values, _⟩, hboth, rfl⟩ := map_eq_ok_iff.1 h
    intro key v hget
    have hmem := OrderedMap.mem_of_get?_ofList hget
    obtain ⟨value, hvalue, hsome⟩ := List.mem_filterMap.1 hmem
    have hchecked := Checked.mem_of_all_eq_ok (Checked.both_eq_ok_iff.1 hboth).1 hvalue
    obtain ⟨s, -, hs⟩ := List.mem_map.1 hchecked
    obtain ⟨hname, hkind⟩ := hasKind_of_checkSetting (hs.trans (congrArg Except.ok hsome))
    exact ⟨s, hname.symm, hkind⟩
  · cases h

/-- A configuration file that is read sets values of settings. -/
theorem isProper_of_load {ws : Workspace} {path : Path} {layer : Layer}
    (h : Config.load ws path = .ok layer) : layer.IsProper := by
  unfold Config.load at h
  split at h
  · next text _ =>
    have hlayer := mapError_eq_ok_iff.1 h
    unfold layerOfText at hlayer
    cases hread : readForCheck text with
    | error issues => rw [hread] at hlayer; cases hlayer
    | ok file =>
      rw [hread] at hlayer
      exact isProper_of_layerOf hlayer
  · cases h
  · cases h

/-! ## One layer over another -/

namespace Layer

variable {file above : Layer}

/-- A layer whose names are those of settings sets these. -/
theorem settings_eq_ok {layer : Layer} (h : ∀ key ∈ layer.keys, ∃ s : Setting, s.name = key) :
    layer.settings = .ok fun s => layer.getD s.name s.default := by
  have hnone : layer.keys.findSome? nameFault? = none := by
    refine List.findSome?_eq_none_iff.2 fun key hkey => ?_
    obtain ⟨s, rfl⟩ := h key hkey
    exact nameFault?_name s
  rw [settings, hnone]

theorem get?_cover (file above : Layer) (key : String) :
    (file.cover above).get? key = ((above.get? key).filter Value.isGiven).or (file.get? key) := by
  rw [cover, OrderedMap.get?_overlay, OrderedMap.get?_filter]

/-- A setting has the value of the upper layer if that says something, else the value of
  the lower layer, else its default. -/
theorem settings_cover (hfile : ∀ key ∈ file.keys, ∃ s : Setting, s.name = key)
    (habove : ∀ key ∈ above.keys, ∃ s : Setting, s.name = key) :
    (file.cover above).settings = .ok fun s =>
      (((above.get? s.name).filter Value.isGiven).or (file.get? s.name)).getD s.default := by
  rw [settings_eq_ok]
  · simp only [OrderedMap.getD, get?_cover]
  · intro key hkey
    rw [← OrderedMap.get?_isSome_iff, get?_cover, Option.isSome_or, Bool.or_eq_true] at hkey
    rcases hkey with hkey | hkey
    · refine habove key (OrderedMap.get?_isSome_iff.1 ?_)
      obtain ⟨v, hv⟩ := Option.isSome_iff_exists.1 hkey
      rw [(Option.filter_eq_some_iff.1 hv).1]
      rfl
    · exact hfile key (OrderedMap.get?_isSome_iff.1 hkey)

theorem IsProper.names (h : file.IsProper) : ∀ key ∈ file.keys, ∃ s : Setting, s.name = key := by
  intro key hkey
  obtain ⟨v, hv⟩ := Option.isSome_iff_exists.1 (OrderedMap.get?_isSome_iff.2 hkey)
  obtain ⟨s, hs, -⟩ := h key v hv
  exact ⟨s, hs⟩

/-- The options that a file sets for its language are a map; there are none by default. -/
theorem IsProper.exists_options (h : file.IsProper) : ∃ below : OrderedMap String Json,
    file.getD Setting.languageOptions.name Setting.languageOptions.default =
      .json (.object below.entries) := by
  unfold OrderedMap.getD
  cases hv : file.get? Setting.languageOptions.name with
  | none => exact ⟨∅, rfl⟩
  | some v =>
    obtain ⟨s, hs, hkind⟩ := h _ v hv
    obtain rfl := Setting.name_inj hs
    cases hkind with
    | options m => exact ⟨m, rfl⟩

/-- The layer that gives some settings their values. -/
def ofValues (value : Setting → Option Value) : Layer :=
  OrderedMap.ofList (Setting.all.filterMap fun s => (value s).map fun v => (s.name, v))

theorem get?_ofValues (value : Setting → Option Value) (s : Setting) :
    (ofValues value).get? s.name = value s := by
  have hnames : ((Setting.all.filterMap fun s => (value s).map fun v => (s.name, v)).map
      Prod.fst).Nodup := by
    rw [List.map_filterMap]
    refine List.Nodup.filterMap ?_ (by decide : Setting.all.Nodup)
    intro s t name hs ht
    simp only [Option.map_map, Option.mem_def, Option.map_eq_some_iff, Function.comp_apply] at hs ht
    obtain ⟨-, -, rfl⟩ := hs
    obtain ⟨-, -, hname⟩ := ht
    exact Setting.name_inj hname.symm
  rw [ofValues, OrderedMap.get?_ofList hnames]
  ext v
  rw [OrderedMap.lookup_eq_some_iff hnames, List.mem_filterMap]
  simp only [Option.map_eq_some_iff, Prod.mk.injEq]
  constructor
  · rintro ⟨t, -, w, hw, hname, rfl⟩
    rwa [← Setting.name_inj hname]
  · exact fun hv => ⟨s, s.mem_all, v, hv, rfl, rfl⟩

theorem names_ofValues (value : Setting → Option Value) :
    ∀ key ∈ (ofValues value).keys, ∃ s : Setting, s.name = key := by
  intro key hkey
  obtain ⟨v, hv⟩ := Option.isSome_iff_exists.1 (OrderedMap.get?_isSome_iff.2 hkey)
  obtain ⟨s, -, hs⟩ := List.mem_filterMap.1 (OrderedMap.mem_of_get?_ofList hv)
  obtain ⟨w, -, hw⟩ := Option.map_eq_some_iff.1 hs
  exact ⟨s, (Prod.mk.inj hw).1⟩

end Layer

end DepGraph
