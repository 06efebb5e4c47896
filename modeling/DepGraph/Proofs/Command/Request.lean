/-
  DepGraph — the options of a request.

  A command line gives an option several times, once or not at all, each time with a
  value if the option takes one.  What an option sets is told by its occurrences alone:
  of several texts the last one counts, a list takes them all, and a switch is on as soon
  as it occurs.

  * `GraphRequest.WellFormed`: the options have values iff they take them;
    `wellFormed_of_ofArguments` says so of every command line.
  * `GraphRequest.occurrences`: the values of an option, one for each time it is given.
  * `GraphOption.Sets`, `GraphRequest.Sets`: what an option sets.
  * `setting?_eq_some_iff`: a request gives a setting this value and no other.
-/
import DepGraph.Command.Basic
import DepGraph.Proofs.Attempt

namespace DepGraph

open DepGraph.Attempt

/-! ## Command lines -/

namespace OptionTable

variable {ω : Type} {t : OptionTable ω}

/-- Options have a value if they take one, and no value otherwise. -/
def Complete (t : OptionTable ω) (given : List (ω × Option String)) : Prop :=
  ∀ e ∈ given, e.2.isSome = t.takesValue e.1

/-- An option that lacks its value takes one. -/
def Lacking (t : OptionTable ω) (pending : Option ω) : Prop :=
  ∀ o, pending = some o → t.takesValue o = true

theorem Complete.append {given more : List (ω × Option String)} (h : t.Complete given)
    (hmore : t.Complete more) : t.Complete (given ++ more) :=
  fun e he => (List.mem_append.1 he).elim (h e) (hmore e)

theorem complete_cons_iff {e : ω × Option String} {given : List (ω × Option String)} :
    t.Complete (e :: given) ↔ e.2.isSome = t.takesValue e.1 ∧ t.Complete given :=
  List.forall_mem_cons

theorem complete_nil : t.Complete [] := fun _ he => absurd he List.not_mem_nil

theorem lacking_none : t.Lacking none := nofun

theorem lacking_some {o : ω} (h : t.takesValue o = true) : t.Lacking (some o) := by
  rintro _ ⟨⟩
  exact h

theorem readLetters?_complete {letters : List Char} {given : List (ω × Option String)}
    {pending : Option ω} (h : t.readLetters? letters = some (given, pending)) :
    t.Complete given ∧ t.Lacking pending := by
  induction letters generalizing given pending with
  | nil =>
    obtain ⟨rfl, rfl⟩ := Prod.mk.inj (Option.some.inj h)
    exact ⟨complete_nil, lacking_none⟩
  | cons c rest ih =>
    obtain ⟨o, -, h⟩ := Option.bind_eq_some_iff.1 h
    split at h
    · next ho =>
      split at h
      · obtain ⟨rfl, rfl⟩ := Prod.mk.inj (Option.some.inj h)
        exact ⟨complete_nil, lacking_some ho⟩
      · obtain ⟨rfl, rfl⟩ := Prod.mk.inj (Option.some.inj h)
        exact ⟨complete_cons_iff.2 ⟨by simp [ho], complete_nil⟩, lacking_none⟩
    · next ho =>
      obtain ⟨⟨more, last⟩, hmore, h⟩ := Option.bind_eq_some_iff.1 h
      obtain ⟨rfl, rfl⟩ := Prod.mk.inj (Option.some.inj h)
      obtain ⟨hcomplete, hlast⟩ := ih hmore
      exact ⟨complete_cons_iff.2 ⟨by simp [ho], hcomplete⟩, hlast⟩

theorem readName_complete {name : String} {value : Option String}
    {given : List (ω × Option String)} {pending : Option ω}
    (h : t.readName name value = .options given pending) :
    t.Complete given ∧ t.Lacking pending := by
  unfold readName at h
  split at h
  · cases h
  · split at h
    · next ho =>
      cases h
      exact ⟨complete_cons_iff.2 ⟨by simp [ho], complete_nil⟩, lacking_none⟩
    · cases h
  · split at h
    · next ho =>
      cases h
      exact ⟨complete_nil, lacking_some ho⟩
    · next ho =>
      cases h
      exact ⟨complete_cons_iff.2 ⟨by simp [ho], complete_nil⟩, lacking_none⟩

theorem word_complete {arg : String} {given : List (ω × Option String)} {pending : Option ω}
    (h : t.word arg = .options given pending) : t.Complete given ∧ t.Lacking pending := by
  unfold word at h
  split at h
  · cases h
  · exact readName_complete h
  · split at h
    · next hletters =>
      cases h
      exact readLetters?_complete hletters
    · cases h
  · cases h

/-- Whatever is read, the options have values iff they take them. -/
theorem readFrom_complete {mixed : Bool} {pending : Option ω} {args : List String}
    {a : Arguments ω} (hpending : t.Lacking pending)
    (h : t.readFrom mixed pending args = some a) : t.Complete a.given := by
  induction args generalizing pending a with
  | nil =>
    cases pending with
    | none =>
      obtain rfl := Option.some.inj h
      exact complete_nil
    | some o => cases h
  | cons arg rest ih =>
    cases pending with
    | some o =>
      obtain ⟨b, hb, rfl⟩ := Option.map_eq_some_iff.1 h
      exact complete_cons_iff.2 ⟨(hpending o rfl).symm, ih lacking_none hb⟩
    | none =>
      unfold readFrom at h
      split at h
      · obtain rfl := Option.some.inj h
        exact complete_nil
      · split at h
        · obtain ⟨b, hb, rfl⟩ := Option.map_eq_some_iff.1 h
          have hrest := ih lacking_none hb
          exact hrest
        · obtain rfl := Option.some.inj h
          exact complete_nil
      · next given last hword =>
        obtain ⟨hgiven, hlast⟩ := word_complete hword
        obtain ⟨b, hb, rfl⟩ := Option.map_eq_some_iff.1 h
        exact hgiven.append (ih hlast hb)
      · cases h

end OptionTable

/-- The options of a request have values iff they take them. -/
def GraphRequest.WellFormed (r : GraphRequest) : Prop :=
  ∀ e ∈ r.given, e.2.isSome = e.1.takesValue

/-- The request of a command that makes a graph. -/
def Command.request? : Command → Option GraphRequest
  | .graph r | .check r => some r
  | _ => none

theorem wellFormed_of_readRequest {ws : Workspace} {options : List GraphOption}
    {args : List String} {r : GraphRequest} (h : Command.readRequest ws options args = .ok r) :
    r.WellFormed := by
  unfold Command.readRequest at h
  split at h
  · cases h
  · next a ha =>
    have hcomplete : (GraphOption.table options).Complete a.given :=
      OptionTable.readFrom_complete OptionTable.lacking_none ha
    have hgiven : r.given = a.given := by
      obtain ⟨-, -, h⟩ := bind_eq_ok_iff.1 h
      split at h
      · rw [← Except.ok.inj h]
      · obtain ⟨-, -, h⟩ := bind_eq_ok_iff.1 h
        split at h
        · rw [← Except.ok.inj h]
        · cases h
    unfold GraphRequest.WellFormed
    rw [hgiven]
    exact hcomplete

/-- The options of every command line have values iff they take them. -/
theorem wellFormed_of_ofArguments {ws : Workspace} {args : List String} {c : Command}
    {r : GraphRequest} (h : Command.ofArguments ws args = .ok c) (hr : c.request? = some r) :
    r.WellFormed := by
  unfold Command.ofArguments at h
  split at h
  · cases h
  · cases h
    cases hr
  · cases h
  · unfold Command.ofName at h
    split at h
    · obtain ⟨q, hq, rfl⟩ := map_eq_ok_iff.1 h
      obtain rfl := Option.some.inj hr
      exact wellFormed_of_readRequest hq
    · obtain ⟨q, hq, rfl⟩ := map_eq_ok_iff.1 h
      obtain rfl := Option.some.inj hr
      exact wellFormed_of_readRequest hq
    · unfold Command.bare at h
      split at h <;> cases h
      cases hr
    · unfold Command.bare at h
      split at h <;> cases h
      cases hr
    · split at h <;> cases h
      cases hr

/-! ## What options set -/

/-- The option that sets a setting; the target is given without one. -/
def Setting.option? : Setting → Option GraphOption
  | target => none
  | language => some .language
  | inputFilters => some .inputFilter
  | pathMapping => some .pathMapping
  | skipAuxiliary => some .keepAuxiliary
  | excludeExternal => some .excludeExternal
  | resultFilters => some .resultFilter
  | rootFilters => some .rootFilter
  | start => some .start
  | depth => some .depth
  | byPaths => some .byPaths
  | strict => some .strict
  | languageOptions => some .languageOption
  | outputFormat => some .format
  | outputFile => some .output
  | cacheFile => some .cache
  | debug => some .debug

/-- What an option that is given with these values sets a setting of a kind to.  The
  options of a language are laid over others, and are nothing by themselves. -/
def GraphOption.Sets (o : GraphOption) (given : List (Option String)) (v : Value) :
    SettingKind → Prop
  | .text | .depth => ∃ text, given.getLast? = some (some text) ∧ v = .json (.string text)
  | .path => ∃ text, given.getLast? = some (some text) ∧ v = .path (Path.ofText text)
  | .texts => ∃ texts, texts ≠ [] ∧ given = texts.map some ∧ v = .json (.ofStrings texts)
  -- the only switch that turns something off keeps the auxiliary folders
  | .flag => given ≠ [] ∧ v = .json (.bool (o ≠ .keepAuxiliary))
  | .options => False

namespace GraphRequest

/-- The values with which an option is given, in order. -/
def occurrences (r : GraphRequest) (o : GraphOption) : List (Option String) :=
  (r.given.filter (·.1 = o)).map Prod.snd

/-- A request sets a setting to a value. -/
def Sets (r : GraphRequest) (s : Setting) (v : Value) : Prop :=
  match s.option? with
  | some o => o.Sets (r.occurrences o) v s.kind
  | none => ∃ text, r.target = some text ∧ v = .path (Path.ofText text)

section
variable {r : GraphRequest} {o : GraphOption} {v : Value}

/-- An option that takes a value occurs with its values. -/
theorem occurrences_eq (h : r.WellFormed) (ho : o.takesValue = true) :
    r.occurrences o = (r.values o).map some := by
  unfold occurrences values
  unfold WellFormed at h
  generalize r.given = given at h
  induction given with
  | nil => rfl
  | cons e rest ih =>
    rw [List.forall_mem_cons] at h
    by_cases he : e.1 = o
    · obtain ⟨text, htext⟩ := Option.isSome_iff_exists.1 (h.1.trans (he ▸ ho))
      simp [he, htext, ih h.2]
    · simp [he, ih h.2]

theorem has_iff : r.has o = true ↔ r.occurrences o ≠ [] := by
  rw [has, List.any_eq_true, occurrences, ne_eq, List.map_eq_nil_iff, List.filter_eq_nil_iff]
  simp

theorem has_iff_values (h : r.WellFormed) (ho : o.takesValue = true) :
    r.has o = true ↔ r.values o ≠ [] := by
  rw [has_iff, occurrences_eq h ho, ne_eq, List.map_eq_nil_iff]

theorem value?_eq_some_iff (h : r.WellFormed) (ho : o.takesValue = true) {text : String} :
    r.value? o = some text ↔ (r.occurrences o).getLast? = some (some text) := by
  rw [occurrences_eq h ho, List.getLast?_map, value?]
  simp

theorem text?_eq_some_iff (h : r.WellFormed) (ho : o.takesValue = true) :
    r.text? o = some v ↔
      ∃ text, (r.occurrences o).getLast? = some (some text) ∧ v = .json (.string text) := by
  simp only [text?, Option.map_eq_some_iff, value?_eq_some_iff h ho, eq_comm (a := v)]

theorem path?_eq_some_iff (h : r.WellFormed) (ho : o.takesValue = true) :
    r.path? o = some v ↔
      ∃ text, (r.occurrences o).getLast? = some (some text) ∧ v = .path (Path.ofText text) := by
  simp only [path?, Option.map_eq_some_iff, value?_eq_some_iff h ho, eq_comm (a := v)]

theorem texts?_eq_some_iff (h : r.WellFormed) (ho : o.takesValue = true) :
    r.texts? o = some v ↔
      ∃ texts, texts ≠ [] ∧ r.occurrences o = texts.map some ∧ v = .json (.ofStrings texts) := by
  rw [texts?, Option.ite_none_right_eq_some, has_iff_values h ho, occurrences_eq h ho]
  constructor
  · rintro ⟨hne, hv⟩
    exact ⟨r.values o, hne, rfl, (Option.some.inj hv).symm⟩
  · rintro ⟨texts, hne, htexts, rfl⟩
    obtain rfl := (List.map_inj_right fun _ _ => Option.some.inj).1 htexts
    exact ⟨hne, rfl⟩

theorem switch?_eq_some_iff {b : Bool} :
    r.switch? o b = some v ↔ r.occurrences o ≠ [] ∧ v = .json (.bool b) := by
  rw [switch?, Option.ite_none_right_eq_some, has_iff, Option.some.injEq, eq_comm (a := v)]

/-- A request gives a setting the value that its option sets, and no other. -/
theorem setting?_eq_some_iff (h : r.WellFormed) {s : Setting} (hs : s ≠ .languageOptions)
    {options : Option Value} : r.setting? options s = some v ↔ r.Sets s v := by
  cases s with
  | target =>
    simp only [setting?, Sets, Setting.option?, Option.map_eq_some_iff, eq_comm (a := v)]
  | languageOptions => exact absurd rfl hs
  | language | start | depth | outputFormat => exact text?_eq_some_iff h rfl
  | inputFilters | pathMapping | resultFilters | rootFilters => exact texts?_eq_some_iff h rfl
  | outputFile | cacheFile => exact path?_eq_some_iff h rfl
  | skipAuxiliary | excludeExternal | byPaths | strict | debug => exact switch?_eq_some_iff

/-- What a request sets says something. -/
theorem Sets.isGiven {s : Setting} (h : r.Sets s v) : v.isGiven = true := by
  unfold Sets at h
  split at h
  · generalize s.kind = kind at h
    cases kind with
    | text | depth | path =>
      obtain ⟨text, -, rfl⟩ := h
      rfl
    | texts =>
      obtain ⟨texts, hne, -, rfl⟩ := h
      obtain ⟨first, rest, rfl⟩ := List.exists_cons_of_ne_nil hne
      rfl
    | flag =>
      obtain ⟨-, rfl⟩ := h
      rfl
    | options => exact h.elim
  · obtain ⟨text, -, rfl⟩ := h
    rfl

end

end GraphRequest

end DepGraph
