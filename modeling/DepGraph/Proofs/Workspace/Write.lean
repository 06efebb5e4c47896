/-
  DepGraph — reading what was written.

  A file is written where no folder stands, in a folder that exists.  Every path
  that led somewhere still leads there, and the path that was written leads to the
  file; so a text that is written can be read again.

  * `Workspace.WritesAt`: where a path has its file written.
  * `Workspace.follow_withFile`: paths lead where they led before.
  * `Workspace.WritesAt.locate`: the path that was written leads to the file.
  * `Workspace.readText_writeText`: reading what was written.
  * `Workspace.WellNamed.writeText`: the names of a tree stay well formed.
-/
import Mathlib.Data.List.Basic
import DepGraph.Proofs.Attempt
import DepGraph.Proofs.Json.LineEnds
import DepGraph.Proofs.Text.Utf8
import DepGraph.Proofs.Workspace.Names
import DepGraph.Workspace.Reading

namespace DepGraph.Workspace

open DepGraph.Text Attempt

/-- A path has its file written under a name in a folder. -/
structure WritesAt (ws : Workspace) (path : String) (folder : List String) (name : String) :
    Prop where
  size : path.utf8ByteSize ≤ longestPath
  relative : startsWith path "/" = false
  segments : ∃ above, split "/" path = above ++ [name] ∧ ws.follow [] above = .ok folder
  plain : name ≠ "" ∧ name ≠ "." ∧ name ≠ ".."
  nameSize : name.utf8ByteSize ≤ longestName
  isFolder : ws.entry? folder = some .folder
  free : ws.entry? (folder ++ [name]) ≠ some .folder

/-- The tree with a file at a place. -/
def withFile (ws : Workspace) (place : List String) (bytes : List UInt8) : Workspace :=
  ⟨ws.entries.insert place (.file bytes)⟩

theorem getLast?_of_getD_ne {segments : List String} {name : String}
    (h : segments.getLast?.getD "" = name) (hname : name ≠ "") :
    segments.dropLast ++ [name] = segments := by
  cases hlast : segments.getLast? with
  | none =>
    rw [hlast] at h
    exact absurd h.symm hname
  | some last =>
    rw [hlast, Option.getD_some] at h
    exact h ▸ List.dropLast_append_getLast? last hlast

theorem writesAt_of_placeToWrite {ws : Workspace} {path : String} {place : List String}
    (h : ws.placeToWrite path = .ok place) :
    ∃ folder name, place = folder ++ [name] ∧ ws.WritesAt path folder name := by
  simp only [placeToWrite, bind, Except.bind] at h
  split at h
  · cases h
  next hsize =>
  split at h
  · cases h
  next hrelative =>
  split at h
  · split at h <;> cases h
  next hplain =>
  generalize hname : (split "/" path).getLast?.getD "" = name at h hplain
  simp only [not_or] at hplain
  cases hfollow : ws.follow [] (split "/" path).dropLast with
  | error e => simp [hfollow] at h
  | ok folder =>
    simp only [hfollow] at h
    split at h
    · cases h
    next hfolder =>
    split at h
    · cases h
    next hsize' =>
    have hwrites : ws.entry? (folder ++ [name]) ≠ some .folder → ws.WritesAt path folder name :=
      fun hfree => {
        size := Nat.le_of_not_lt hsize
        relative := by simpa using hrelative
        segments := ⟨_, (getLast?_of_getD_ne hname hplain.1).symm, hfollow⟩
        plain := hplain
        nameSize := Nat.le_of_not_lt hsize'
        isFolder := by simpa using hfolder
        free := hfree }
    split at h
    · cases h
    · cases h
    · next hfree _ =>
      exact ⟨folder, name, (Except.ok.inj h).symm, hwrites hfree⟩

section
variable {ws : Workspace} {place : List String} {bytes : List UInt8}

theorem entry?_withFile_self (ws : Workspace) (bytes : List UInt8) (hplace : place ≠ []) :
    entry? (ws.withFile place bytes) place = some (.file bytes) := by
  have hne : place.isEmpty = false := by simpa using hplace
  unfold entry?
  rw [hne]
  exact OrderedMap.get?_modify_self ..

theorem entry?_withFile_of_ne {other : List String} (h : other ≠ place) :
    entry? (ws.withFile place bytes) other = ws.entry? other := by
  unfold entry?
  split
  · rfl
  · exact OrderedMap.get?_modify_of_ne _ h _

end

/-! ## Following paths -/

/-- A segment of a path leads from a folder to a place. -/
inductive Leads (ws : Workspace) (start : List String) (segment : String) : List String → Prop
  | stay (h : segment = "" ∨ segment = ".") : Leads ws start segment start
  | up (h : segment = "..") (hne : start ≠ []) : Leads ws start segment start.dropLast
  | down (hplain : segment ≠ "" ∧ segment ≠ "." ∧ segment ≠ "..")
    (hsize : segment.utf8ByteSize ≤ longestName)
    (hentry : ws.entry? (start ++ [segment]) = some .folder ∨
      ∃ bytes, ws.entry? (start ++ [segment]) = some (.file bytes)) :
    Leads ws start segment (start ++ [segment])

section
variable {ws : Workspace} {start target : List String} {segment : String}

/-- A path leads on if its first segment does. -/
theorem follow_cons_iff {rest : List String} :
    ws.follow start (segment :: rest) = .ok target ↔ ws.entry? start = some .folder ∧
      ∃ next, ws.Leads start segment next ∧ ws.follow next rest = .ok target := by
  constructor
  · intro h
    rw [follow] at h
    split at h
    · next hfolder =>
      refine ⟨hfolder, ?_⟩
      split at h
      · next hstay => exact ⟨start, .stay hstay, h⟩
      next hstay =>
      split at h
      · next hup =>
        split at h
        · cases h
        · next hne => exact ⟨_, .up hup (by simpa using hne), h⟩
      next hup =>
      split at h
      · cases h
      next hsize =>
      have hplain : segment ≠ "" ∧ segment ≠ "." ∧ segment ≠ ".." :=
        ⟨fun he => hstay (.inl he), fun he => hstay (.inr he), hup⟩
      split at h
      · next hentry =>
        exact ⟨_, .down hplain (Nat.le_of_not_lt hsize) (.inr ⟨_, hentry⟩), h⟩
      · next hentry =>
        exact ⟨_, .down hplain (Nat.le_of_not_lt hsize) (.inl hentry), h⟩
      · cases h
      · cases h
    · cases h
  · rintro ⟨hfolder, next, hleads, h⟩
    rw [follow, hfolder]
    dsimp only
    cases hleads with
    | stay hstay => rwa [if_pos hstay]
    | up hup hne =>
      rw [if_neg (by simp [hup]), if_pos hup, if_neg (by simpa using hne)]
      exact h
    | down hplain hsize hentry =>
      rw [if_neg (by simp [hplain]), if_neg hplain.2.2, if_neg (Nat.not_lt.2 hsize)]
      rcases hentry with hentry | ⟨bytes, hentry⟩
      · rwa [hentry]
      · rwa [hentry]

theorem follow_append_iff {first rest : List String} :
    ws.follow start (first ++ rest) = .ok target ↔
      ∃ next, ws.follow start first = .ok next ∧ ws.follow next rest = .ok target := by
  induction first generalizing start with
  | nil => simp [follow]
  | cons segment first ih =>
    simp only [List.cons_append, follow_cons_iff, ih]
    constructor
    · rintro ⟨hfolder, place, hleads, next, hfirst, hrest⟩
      exact ⟨next, ⟨hfolder, place, hleads, hfirst⟩, hrest⟩
    · rintro ⟨next, ⟨hfolder, place, hleads, hfirst⟩, hrest⟩
      exact ⟨hfolder, place, hleads, next, hfirst, hrest⟩

end

/-! ## After writing -/

section
variable {ws : Workspace} {place : List String} {bytes : List UInt8}

theorem isFolder_withFile {other : List String} (hfree : ws.entry? place ≠ some .folder)
    (h : ws.entry? other = some .folder) :
    entry? (ws.withFile place bytes) other = some .folder := by
  have hne : other ≠ place := fun heq => hfree (heq ▸ h)
  rw [entry?_withFile_of_ne hne, h]

theorem Leads.withFile {start next : List String} {segment : String}
    (h : ws.Leads start segment next) :
    (ws.withFile place bytes).Leads start segment next := by
  cases h with
  | stay hstay => exact .stay hstay
  | up hup hne => exact .up hup hne
  | down hplain hsize hentry =>
    refine .down hplain hsize ?_
    by_cases hplace : start ++ [segment] = place
    · subst hplace
      exact .inr ⟨bytes, entry?_withFile_self ws bytes (by simp)⟩
    · rwa [entry?_withFile_of_ne hplace]

/-- A path leads where it led before a file was written where no folder stands. -/
theorem follow_withFile (hfree : ws.entry? place ≠ some .folder)
    {start segments target : List String} (h : ws.follow start segments = .ok target) :
    (ws.withFile place bytes).follow start segments = .ok target := by
  induction segments generalizing start with
  | nil => exact h
  | cons segment rest ih =>
    obtain ⟨hfolder, next, hleads, hrest⟩ := follow_cons_iff.1 h
    exact follow_cons_iff.2 ⟨isFolder_withFile hfree hfolder, next, hleads.withFile, ih hrest⟩

end

section
variable {ws ws' : Workspace} {path text name : String} {folder : List String}

/-- The path that was written leads to the file. -/
theorem WritesAt.locate (h : ws.WritesAt path folder name) (bytes : List UInt8) :
    (ws.withFile (folder ++ [name]) bytes).locate path = .ok (folder ++ [name]) := by
  obtain ⟨above, hsplit, habove⟩ := h.segments
  have hpath : path ≠ "" := by
    rintro rfl
    have hlast : [""].getLast? = some name := by
      rw [← (by decide : split "/" "" = [""]), hsplit, List.getLast?_concat]
    exact h.plain.1 (Option.some.inj hlast).symm
  have hlast : (ws.withFile (folder ++ [name]) bytes).follow folder [name] =
      .ok (folder ++ [name]) := by
    refine follow_cons_iff.2 ⟨isFolder_withFile h.free h.isFolder, _, ?_, rfl⟩
    exact .down h.plain h.nameSize (.inr ⟨bytes, entry?_withFile_self ws bytes (by simp)⟩)
  unfold Workspace.locate
  rw [if_neg hpath, if_neg (Nat.not_lt.2 h.size), if_neg (by simp [h.relative]), hsplit]
  exact follow_append_iff.2 ⟨folder, follow_withFile h.free habove, hlast⟩

/-- A text is written as a file where its path has one written. -/
theorem exists_writesAt_of_writeText (h : ws.writeText path text = .ok ws') :
    '\x00' ∉ path.toList ∧ ∃ folder name, ws.WritesAt path folder name ∧
      ws' = ws.withFile (folder ++ [name]) (Utf8.encode text.toList) := by
  unfold writeText at h
  split at h
  · cases h
  next hnull =>
  obtain ⟨place, hplace, hwritten⟩ := map_eq_ok_iff.1 (mapError_eq_ok_iff.1 h)
  obtain ⟨folder, name, rfl, hwrites⟩ := writesAt_of_placeToWrite hplace
  exact ⟨hnull, folder, name, hwrites, hwritten.symm⟩

/-- **A text that was written is read again**, its line ends folded. -/
theorem readText_writeText (h : ws.writeText path text = .ok ws') :
    ws'.pathExists path = .ok true ∧ ws'.readText path = .ok (foldNewlines text.toList) := by
  obtain ⟨hnull, folder, name, hwrites, rfl⟩ := exists_writesAt_of_writeText h
  have hlocate := hwrites.locate (Utf8.encode text.toList)
  have hentry : entry? (ws.withFile (folder ++ [name]) (Utf8.encode text.toList))
      (folder ++ [name]) = some (.file (Utf8.encode text.toList)) :=
    entry?_withFile_self ws _ (by simp)
  constructor
  · rw [pathExists, if_neg hnull, hlocate]
  · have hbytes : (ws.withFile (folder ++ [name]) (Utf8.encode text.toList)).readBytes path =
        .ok (Utf8.encode text.toList) := by
      rw [readBytes, if_neg hnull]
      simp only [Workspace.bytes, hlocate, bind, Except.bind, hentry]
      rfl
    simp only [readText, hbytes, bind, Except.bind, textOf, Utf8.decode_encode]
    rfl

end

/-! ## Names -/

section
variable {ws ws' : Workspace}

theorem wellNamed_empty : empty.WellNamed where
  slash _ hplace := absurd hplace List.not_mem_nil
  null _ hplace := absurd hplace List.not_mem_nil

/-- The names of a place that a path leads to are those of its start and segments. -/
theorem mem_of_follow {start segments target : List String}
    (h : ws.follow start segments = .ok target) :
    ∀ name ∈ target, name ∈ start ∨ name ∈ segments := by
  induction segments generalizing start with
  | nil =>
    obtain rfl : start = target := Except.ok.inj h
    exact fun _ hname => .inl hname
  | cons segment rest ih =>
    obtain ⟨-, next, hleads, hrest⟩ := follow_cons_iff.1 h
    have hnext : ∀ name ∈ next, name ∈ start ∨ name = segment := by
      cases hleads with
      | stay => exact fun _ hname => .inl hname
      | up => exact fun _ hname => .inl (List.dropLast_subset _ hname)
      | down => simp
    intro name hname
    rcases ih hrest name hname with hname | hname
    · rcases hnext name hname with hstart | rfl
      · exact .inl hstart
      · exact .inr List.mem_cons_self
    · exact .inr (List.mem_cons_of_mem segment hname)

/-- Writing a text keeps the names of a tree well formed. -/
theorem WellNamed.writeText (hw : ws.WellNamed) {path text : String}
    (h : ws.writeText path text = .ok ws') : ws'.WellNamed := by
  obtain ⟨hnull, folder, name, hwrites, rfl⟩ := exists_writesAt_of_writeText h
  obtain ⟨above, hsplit, habove⟩ := hwrites.segments
  -- the names of the new place are segments of the path
  have hsegment : ∀ n ∈ folder ++ [name], n ∈ split "/" path := by
    intro n hn
    rw [hsplit]
    rcases List.mem_append.1 hn with hn | hn
    · rcases mem_of_follow habove n hn with hn | hn
      · exact absurd hn List.not_mem_nil
      · exact List.mem_append_left _ hn
    · exact List.mem_append_right _ hn
  have hkeys : ∀ place ∈ (ws.withFile (folder ++ [name]) (Utf8.encode text.toList)).entries.keys,
      place ∈ ws.entries.keys ∨ place = folder ++ [name] := by
    intro place hplace
    simp only [withFile, OrderedMap.insert, OrderedMap.keys_modify] at hplace
    split at hplace
    · exact .inl hplace
    · simpa using hplace
  constructor
  · intro place hplace n hn
    rcases hkeys place hplace with hold | rfl
    · exact hw.slash place hold n hn
    · exact separator_not_mem_of_mem_split slash_toList (hsegment n hn)
  · intro place hplace n hn
    rcases hkeys place hplace with hold | rfl
    · exact hw.null place hold n hn
    · exact not_mem_of_mem_split slash_toList (by decide) hnull (hsegment n hn)

end

end DepGraph.Workspace
