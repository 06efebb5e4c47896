/-
  DepGraph — where the values of settings come from.

  What a command line gives counts before what the configuration file sets, and this
  counts before the defaults.  An option that is not given leaves the value of the file
  as it is.  Only the options of the language are put together from both: they are laid
  over those of the file, key by key.

  * `GraphRequest.Prevails`: the values of all settings, told from a request and a file.
  * `settings_eq`: the settings of a request whose options can be read.
  * `settings_precedence`: every request ends with these settings, or with the fault of
    the file or of an option.
-/
import DepGraph.Proofs.Command.Request
import DepGraph.Proofs.Settings.Layers

namespace DepGraph

open DepGraph.Attempt

namespace GraphRequest

/-- The values of all settings come from a request, from a file and from the defaults, in
  this order; `above` are the options of the language that the request gives. -/
structure Prevails (r : GraphRequest) (file : Layer) (above : OrderedMap String Json)
    (s : Settings) : Prop where
  /-- What the request sets counts. -/
  given : ∀ setting v, r.Sets setting v → s setting = v
  /-- What it does not set has the value of the file, or else the default. -/
  inherited : ∀ setting, setting ≠ .languageOptions → (∀ v, ¬ r.Sets setting v) →
    s setting = file.getD setting.name setting.default
  /-- The options of the language are those of the file, over which those of the request
    are laid key by key. -/
  options : ∃ below options : OrderedMap String Json,
    file.getD Setting.languageOptions.name Setting.languageOptions.default =
      .json (.object below.entries) ∧
    s .languageOptions = .json (.object options.entries) ∧
    options.keys = below.keys ++ above.keys.filter (· ∉ below.keys) ∧
    ∀ key, options.get? key = (above.get? key).or (below.get? key)

section
variable {r : GraphRequest} {ws : Workspace} {file : Layer}

theorem isProper_of_fileLayer (h : r.fileLayer ws = .ok file) : file.IsProper := by
  unfold fileLayer at h
  split at h
  · exact isProper_of_load h
  · obtain rfl := Except.ok.inj h
    exact isProper_empty

/-! ## The options of the language -/

/-- The options that a file sets are read back from its layer. -/
theorem options_of_getD {below : OrderedMap String Json}
    (h : file.getD Setting.languageOptions.name Setting.languageOptions.default =
      .json (.object below.entries)) :
    (file.getD Setting.languageOptions.name (.json .null)).options = below := by
  unfold OrderedMap.getD at h ⊢
  cases hv : file.get? Setting.languageOptions.name with
  | none =>
    rw [hv] at h
    injection h with h
    injection h with h
    exact OrderedMap.ext h
  | some v =>
    rw [hv] at h
    obtain rfl : v = _ := h
    exact OrderedMap.ofList_entries below

theorem languageOptions?_eq_error (h : r.WellFormed) {text : String}
    (hread : readOptions (r.values .languageOption) = .error text) :
    r.languageOptions? file = .error (.invalidOption text) := by
  have hne : r.values .languageOption ≠ [] := by
    intro hnil
    rw [hnil] at hread
    cases hread
  rw [languageOptions?, if_pos ((has_iff_values h rfl).2 hne), hread]
  rfl

/-- The options of the language are laid over those of the file, if any are given. -/
theorem languageOptions?_eq_ok (h : r.WellFormed) {above below : OrderedMap String Json}
    (hread : readOptions (r.values .languageOption) = .ok above)
    (hbelow : file.getD Setting.languageOptions.name Setting.languageOptions.default =
      .json (.object below.entries)) :
    r.languageOptions? file = .ok (some (.json (.object (below.overlay above).entries))) ∨
      r.languageOptions? file = .ok none ∧ above = ∅ := by
  unfold languageOptions?
  split
  · rw [hread, options_of_getD hbelow]
    exact .inl rfl
  · next hhas =>
    rw [has_iff_values h rfl, ne_eq, not_not] at hhas
    rw [hhas] at hread
    exact .inr ⟨rfl, (Except.ok.inj hread).symm⟩

/-! ## All settings -/

/-- The settings of a request whose options can be read. -/
theorem settings_eq (hfile : r.fileLayer ws = .ok file) {options : Option Value}
    (hoptions : r.languageOptions? file = .ok options) :
    r.settings ws = .ok fun s =>
      (((r.setting? options s).filter Value.isGiven).or (file.get? s.name)).getD s.default := by
  have hlayer : r.layer file = .ok (Layer.ofValues (r.setting? options)) := by
    rw [layer, hoptions]
    rfl
  have hcover := Layer.settings_cover (isProper_of_fileLayer hfile).names
    (Layer.names_ofValues (r.setting? options))
  simp only [Layer.get?_ofValues] at hcover
  unfold settings
  rw [hfile]
  change ((r.layer file).bind fun above => (file.cover above).settings.mapError .layer) = _
  rw [hlayer]
  change (file.cover (Layer.ofValues (r.setting? options))).settings.mapError _ = _
  rw [hcover]
  rfl

theorem settings_of_fileLayer_error {failure : Failure} (h : r.fileLayer ws = .error failure) :
    r.settings ws = .error failure := by
  unfold settings
  rw [h]
  rfl

theorem settings_of_options_error (hfile : r.fileLayer ws = .ok file) {failure : Failure}
    (h : r.languageOptions? file = .error failure) : r.settings ws = .error failure := by
  unfold settings layer
  rw [hfile]
  change ((r.languageOptions? file).bind _).bind _ = _
  rw [h]
  rfl

/-- No option of the file is lost when others are laid over it. -/
theorem entries_eq_nil_of_overlay {below above : OrderedMap String Json}
    (h : (below.overlay above).entries = []) : below.entries = [] := by
  have hkeys := OrderedMap.keys_overlay below above
  rw [OrderedMap.keys, h, List.map_nil, eq_comm, List.append_eq_nil_iff] at hkeys
  exact List.map_eq_nil_iff.1 hkeys.1

/-- A request whose options can be read ends with settings that come from it, from the
  file and from the defaults. -/
theorem exists_prevails (h : r.WellFormed) (hfile : r.fileLayer ws = .ok file)
    {above : OrderedMap String Json}
    (hread : readOptions (r.values .languageOption) = .ok above) :
    ∃ s, r.settings ws = .ok s ∧ r.Prevails file above s := by
  obtain ⟨below, hbelow⟩ := (isProper_of_fileLayer hfile).exists_options
  obtain ⟨options, hoptions⟩ : ∃ options, r.languageOptions? file = .ok options := by
    rcases languageOptions?_eq_ok h hread hbelow with hgiven | ⟨hnone, -⟩
    · exact ⟨_, hgiven⟩
    · exact ⟨_, hnone⟩
  refine ⟨_, settings_eq hfile hoptions, ?_, ?_, below, below.overlay above, hbelow, ?_,
    OrderedMap.keys_overlay below above, OrderedMap.get?_overlay below above⟩
  · intro setting v hv
    have hne : setting ≠ .languageOptions := by
      rintro rfl
      exact hv
    have hsetting : r.setting? options setting = some v := (setting?_eq_some_iff h hne).2 hv
    simp [hsetting, Option.filter, hv.isGiven]
  · intro setting hne hnone
    have hsetting : r.setting? options setting = none :=
      Option.eq_none_iff_forall_ne_some.2 fun v hv => hnone v ((setting?_eq_some_iff h hne).1 hv)
    simp [hsetting, OrderedMap.getD]
  · rcases languageOptions?_eq_ok h hread hbelow with hgiven | ⟨hnone, rfl⟩
    · obtain rfl := Except.ok.inj (hoptions.symm.trans hgiven)
      cases hentries : (below.overlay above).entries with
      | nil =>
        -- nothing is laid over, so the value of the file stands
        rw [entries_eq_nil_of_overlay hentries] at hbelow
        simpa [setting?, Option.filter, Value.isGiven, OrderedMap.getD] using hbelow
      | cons e rest => simp [setting?, Option.filter, Value.isGiven]
    · obtain rfl := Except.ok.inj (hoptions.symm.trans hnone)
      exact hbelow

end

end GraphRequest

/-- **The command line counts before the file, and the file before the defaults.**  Every
  request that a command line makes is well-formed.  A well-formed request fails as its
  configuration file or the first unreadable option of its language does; else each of its
  settings has the value that the command line gives, or else that of the file, or else
  its default, and the options of its language are laid over those of the file. -/
theorem settings_precedence (ws : Workspace) :
    (∀ args c r, Command.ofArguments ws args = .ok c → c.request? = some r → r.WellFormed) ∧
    ∀ r : GraphRequest, r.WellFormed →
      ∃ texts, r.occurrences .languageOption = texts.map some ∧
        (∀ failure, r.fileLayer ws = .error failure → r.settings ws = .error failure) ∧
        ∀ file, r.fileLayer ws = .ok file →
          (∀ text, readOptions texts = .error text →
            r.settings ws = .error (.invalidOption text)) ∧
          ∀ above, readOptions texts = .ok above →
            ∃ s, r.settings ws = .ok s ∧ r.Prevails file above s := by
  refine ⟨fun args c r => wellFormed_of_ofArguments, fun r h => ?_⟩
  refine ⟨_, GraphRequest.occurrences_eq h rfl,
    fun failure => GraphRequest.settings_of_fileLayer_error, fun file hfile => ?_⟩
  refine ⟨fun text hread => ?_, fun above => GraphRequest.exists_prevails h hfile⟩
  exact GraphRequest.settings_of_options_error hfile
    (GraphRequest.languageOptions?_eq_error h hread)

/-- A configuration file that sets four settings. -/
def presetText : String :=
  "\x7b\"language\":\"c\",\"inputFilters\":[\"a\"],\"depth\":2," ++
    "\"languageOptions\":\x7b\"dev\":true,\"x\":1\x7d\x7d"

/-- A workspace with this file. -/
def preset : Workspace :=
  ⟨OrderedMap.ofList [(["k"], .file (presetText.toList.map fun c => c.toNat.toUInt8))]⟩

/-- What the file sets. -/
def presetLayer : Layer :=
  OrderedMap.ofList
    [("language", .json (.string "c")), ("input_filters", .json (.ofStrings ["a"])),
      ("depth", .json (.string "2")),
      ("language_options", .json (.object [("dev", .bool true), ("x", .int 1)]))]

theorem load_preset : Config.load preset (Path.ofText "k") = .ok presetLayer := by
  have htext : preset.readText (Path.ofText "k").text = .ok presetText.toList := rfl
  have hread : readForCheck presetText.toList = .ok (.object [("language", .string "c"),
      ("inputFilters", .array [.string "a"]), ("depth", .int 2),
      ("languageOptions", .object [("dev", .bool true), ("x", .int 1)])]) := rfl
  rw [Config.load, htext]
  change (layerOfText presetText.toList).mapError _ = _
  rw [layerOfText, hread]
  rfl

/-- A check with this file, and with options that say otherwise. -/
def presetRequest : GraphRequest :=
  ⟨[(.config, some "k"), (.inputFilter, some "b"), (.inputFilter, some "c"),
    (.keepAuxiliary, none), (.languageOption, some "dev=no")], none⟩

/-- Two lists of filters, a switch, the value of a file, a default, and the options of a
  language from both. -/
theorem settings_precedence_preset :
    Command.ofArguments preset
        ["check", "-c", "k", "--input-filter=b", "-ic", "--keep-auxiliary-folders",
          "--option", "dev=no"] = .ok (.check presetRequest) ∧
      ∃ s options, presetRequest.settings preset = .ok s ∧
        s .inputFilters = .json (.ofStrings ["b", "c"]) ∧
        s .skipAuxiliary = .json (.bool false) ∧
        s .depth = .json (.string "2") ∧
        s .outputFormat = .json (.string "plain") ∧
        s .languageOptions = .json (.object (OrderedMap.entries options)) ∧
        options.get? "dev" = some (.bool false) ∧ options.get? "x" = some (.int 1) := by
  have hcommand : Command.ofArguments preset
      ["check", "-c", "k", "--input-filter=b", "-ic", "--keep-auxiliary-folders",
        "--option", "dev=no"] = .ok (.check presetRequest) := rfl
  refine ⟨hcommand, ?_⟩
  obtain ⟨hform, hrequest⟩ := settings_precedence preset
  have hr : presetRequest.WellFormed := hform _ _ _ hcommand rfl
  obtain ⟨texts, htexts, -, hload⟩ := hrequest _ hr
  obtain rfl : ["dev=no"] = texts := (List.map_inj_right fun _ _ => Option.some.inj).1 htexts
  obtain ⟨s, hs, hprevails⟩ :=
    (hload presetLayer load_preset).2 (OrderedMap.ofList [("dev", .bool false)]) rfl
  obtain ⟨below, options, hbelow, hoptions, -, hget⟩ := hprevails.options
  obtain rfl : OrderedMap.ofList [("dev", .bool true), ("x", .int 1)] = below :=
    GraphRequest.options_of_getD hbelow
  refine ⟨s, options, hs, ?_, ?_, ?_, ?_, hoptions, ?_, ?_⟩
  · exact hprevails.given .inputFilters _ ⟨["b", "c"], by simp, rfl, rfl⟩
  · exact hprevails.given .skipAuxiliary _ ⟨by decide, rfl⟩
  · refine hprevails.inherited .depth (by decide) ?_
    rintro v ⟨text, htext, -⟩
    cases htext
  · refine hprevails.inherited .outputFormat (by decide) ?_
    rintro v ⟨text, htext, -⟩
    cases htext
  · rw [hget]
    rfl
  · rw [hget]
    rfl

end DepGraph
