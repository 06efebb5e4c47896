/-
  DepGraph — the lock file of yarn.

  A lock file says what its paragraphs say, one after the other.  No paragraph is read as
  more packages than it lists; so if the file says what was written, and lists no package
  twice, then every paragraph says what was written.

  * `readYarnLock_eq`: a lock file is read part by part.
  * `eq_of_flatMap_eq`: parts that are not longer are equal if all of them together are.
  * `readYarnLock_iff`: when a lock file says what was written.
-/
import DepGraph.Proofs.Language.YarnLock.Entry
import DepGraph.Proofs.OrderedMap

namespace DepGraph

open DepGraph.Text

/-! ## Parts of a list -/

theorem length_flatMap_le {α β : Type} {f g : α → List β} {l : List α}
    (hle : ∀ a ∈ l, (f a).length ≤ (g a).length) :
    (l.flatMap f).length ≤ (l.flatMap g).length := by
  induction l with
  | nil => rfl
  | cons a rest ih =>
    rw [List.forall_mem_cons] at hle
    have hrest := ih hle.2
    rw [List.flatMap_cons, List.flatMap_cons, List.length_append, List.length_append]
    omega

/-- Where no part is longer than its counterpart, the parts are equal if all of them together
  are. -/
theorem eq_of_flatMap_eq {α β : Type} {f g : α → List β} {l : List α}
    (hle : ∀ a ∈ l, (f a).length ≤ (g a).length) (h : l.flatMap f = l.flatMap g) :
    ∀ a ∈ l, f a = g a := by
  induction l with
  | nil => simp
  | cons a rest ih =>
    rw [List.forall_mem_cons] at hle ⊢
    rw [List.flatMap_cons, List.flatMap_cons] at h
    have hrest := length_flatMap_le hle.2
    have hlen := congrArg List.length h
    rw [List.length_append, List.length_append] at hlen
    obtain ⟨ha, hr⟩ := List.append_inj h (by omega)
    exact ⟨ha, ih hle.2 hr⟩

/-! ## Lock files -/

theorem readYarnLock_eq {text : List Char} {file : List LockPart} (h : WrittenAs text file) :
    readYarnLock text =
      .ofList (file.flatMap fun part => entryOf (solidLines part.lines)) := by
  have hsolid (p : List (List Char)) :
      solidLines p = (p.map trim).filter (!·.isEmpty) := rfl
  obtain ⟨hfeeds, hparts⟩ := h
  rw [readYarnLock, flatMap_yarnEntry hfeeds]
  have hmap := congrArg (List.flatMap fun ls => entryOf (ls.filter (!·.isEmpty))) hparts
  rw [List.flatMap_map, List.flatMap_map] at hmap
  exact congrArg OrderedMap.ofList hmap

/-- **When a lock file says what was written**: each package listed, with the requirements of
  its entry, in order; if a package is listed again, the later entry counts.  Where no package
  is listed twice, this is so only if everything written is readable. -/
theorem readYarnLock_iff (text : List Char) (file : List LockPart) (h : WrittenAs text file) :
    ((∀ part ∈ file, part.IsReadable) →
        readYarnLock text = .ofList (file.flatMap LockPart.pairs)) ∧
      (((file.flatMap LockPart.pairs).map Prod.fst).Nodup →
        ((readYarnLock text).entries = file.flatMap LockPart.pairs ↔
          ∀ part ∈ file, part.IsReadable)) := by
  rw [readYarnLock_eq h]
  have hread : (∀ part ∈ file, part.IsReadable) →
      (file.flatMap fun part => entryOf (solidLines part.lines)) =
        file.flatMap LockPart.pairs := fun hall =>
    List.flatMap_congr fun part hpart => (entryOf_part_iff part).2.2 (hall part hpart)
  have hle : ∀ part ∈ file, (entryOf (solidLines part.lines)).length ≤ part.pairs.length :=
    fun part _ => (entryOf_part_iff part).1
  refine ⟨fun hall => by rw [hread hall], fun hnodup => ⟨fun heq => ?_, fun hall => ?_⟩⟩
  · have hlen := length_flatMap_le hle
    rw [OrderedMap.entries_ofList_of_length (by rwa [heq])] at heq
    exact fun part hpart => (entryOf_part_iff part).2.1 (eq_of_flatMap_eq hle heq part hpart)
  · rw [hread hall]
    exact (OrderedMap.entries_foldl_insert _ .empty hnodup).trans (List.nil_append _)

/-- Two packages without colons, after a comment. -/
def padText : List Char :=
  fedLines ["# yarn lockfile v1", "", "", "\"left-pad@^1.0.0\", left-pad@1:",
    "  version \"1.3.0\"", "  dependencies:", "    pad-core \"^2.0.0\"", "", "pad-core@^2.0.0:",
    "  version \"2.0.1\"", ""]

def padLock : List LockPart :=
  let leftPad : LockWord := ⟨"left-pad".toList, by decide, by decide⟩
  let padCore : LockWord := ⟨"pad-core".toList, by decide, by decide⟩
  let old : LockWord := ⟨"^1.0.0".toList, by decide, by decide⟩
  let one : LockWord := ⟨"1".toList, by decide, by decide⟩
  let new : LockWord := ⟨"^2.0.0".toList, by decide, by decide⟩
  [.comment " yarn lockfile v1".toList [],
    .entry {
      specs := [⟨⟨leftPad, old⟩, true, by decide⟩, ⟨⟨leftPad, one⟩, false, by decide⟩]
      specs_ne_nil := by simp
      fields := ["version \"1.3.0\"".toList]
      fields_plain := by decide
      block := some ⟨[⟨⟨padCore, new⟩, false, true, by decide, by decide⟩], [], by decide⟩ },
    .entry {
      specs := [⟨⟨padCore, new⟩, false, by decide⟩]
      specs_ne_nil := by simp
      fields := ["version \"2.0.1\"".toList]
      fields_plain := by decide
      block := none }]

theorem readYarnLock_padText : WrittenAs padText padLock ∧
    (readYarnLock padText).entries =
      [("left-pad@^1.0.0", ["pad-core@^2.0.0"]), ("left-pad@1", ["pad-core@^2.0.0"]),
        ("pad-core@^2.0.0", [])] := by
  have hwritten : WrittenAs padText padLock := by decide +kernel
  have hreadable : ∀ part ∈ padLock, part.IsReadable := by decide +kernel
  obtain ⟨hread, -⟩ := readYarnLock_iff padText padLock hwritten
  refine ⟨hwritten, ?_⟩
  rw [hread hreadable]
  decide +kernel

/-- A package under another name, and a range of two words. -/
def aliasText : List Char :=
  fedLines ["app@1:", "  dependencies:", "    sw \"npm:string-width@4\"", "    ms \">=1 <2\"",
    "", "\"sw@npm:string-width@4\":", "  version \"4.2.3\"", "", "\"ms@>=1 <2\":",
    "  version \"1.0.0\"", ""]

def aliasLock : List LockPart :=
  let sw : LockWord := ⟨"sw".toList, by decide, by decide⟩
  let width : LockWord := ⟨"npm:string-width@4".toList, by decide, by decide⟩
  let ms : LockWord := ⟨"ms".toList, by decide, by decide⟩
  let between : LockWord := ⟨">=1 <2".toList, by decide, by decide⟩
  let app : LockWord := ⟨"app".toList, by decide, by decide⟩
  let one : LockWord := ⟨"1".toList, by decide, by decide⟩
  [.entry {
      specs := [⟨⟨app, one⟩, false, by decide⟩]
      specs_ne_nil := by simp
      fields := []
      fields_plain := by simp
      block := some ⟨[⟨⟨sw, width⟩, false, true, by decide, by decide⟩,
        ⟨⟨ms, between⟩, false, true, by decide, by decide⟩], [], by decide⟩ },
    .entry {
      specs := [⟨⟨sw, width⟩, true, by decide⟩]
      specs_ne_nil := by simp
      fields := ["version \"4.2.3\"".toList]
      fields_plain := by decide
      block := none },
    .entry {
      specs := [⟨⟨ms, between⟩, true, by decide⟩]
      specs_ne_nil := by simp
      fields := ["version \"1.0.0\"".toList]
      fields_plain := by decide
      block := none }]

/-- The alias is cut at its colon, and the words of the range are joined by `@`: neither
  requirement is the name of an entry. -/
theorem readYarnLock_aliasText : WrittenAs aliasText aliasLock ∧
    (readYarnLock aliasText).entries =
      [("app@1", ["sw@npm:string-width@4", "ms@\">=1@<2\""]), ("\"sw@npm", []), ("ms@>=1 <2", [])] ∧
    (readYarnLock aliasText).entries ≠ aliasLock.flatMap LockPart.pairs := by
  exact ⟨by decide +kernel, by decide +kernel, by decide +kernel⟩

end DepGraph
