/-
  DepGraph — lock files that cannot be used.

  A manifest can be scanned with the lock files beside it, of which the one of yarn
  counts first.  The lock file of yarn does not keep the manifest from being scanned, as
  long as its bytes are those of a text.  The one of npm never does, whatever it holds,
  as long as it and the manifest are ordinary: their containers do not lie too deep
  within each other for a reader, and their surrogate escapes are paired.  If neither
  lock file lists a package, the manifest is then scanned as without them.

  * `ListsYarnEntry`, `ListsPackage`: the text of a lock file lists a package.
  * `Source.Among`: an ordinary manifest, among files that can be asked for.
  * `readYarnLock_eq_empty_iff`, `readPackageLock_eq_empty_iff`: the texts that list none.
  * `lock_files_fall_back_iff`: when a manifest is scanned, and when as without lock
    files.
  * `undecodable_lock_escapes`: a lock file whose only byte starts no character.
-/
import DepGraph.Proofs.Language.Scan
import DepGraph.Proofs.Workspace.Reading

namespace DepGraph

open DepGraph.Text Attempt

/-! ## What lock files list -/

/-- The text of a `yarn.lock` lists a package: it has an entry, whose first line is no
  comment. -/
def ListsYarnEntry (text : List Char) : Prop :=
  ∃ part ∈ segments ['\n', '\n'] text, ∃ header rest,
    sectionLines part = header :: rest ∧ header.head? ≠ some '#'

/-- The text of a `package-lock.json` lists a package: under `packages` stands an object
  that has an object for a member. -/
def ListsPackage (text : List Char) : Prop :=
  ∃ lock members key package, Json.readSettled? text = some lock ∧
    lock.member? "packages" = some (.object members) ∧ (key, .object package) ∈ members

theorem yarnEntry_eq_nil_iff {text : List Char} :
    yarnEntry text = [] ↔
      ∀ header rest, sectionLines text = header :: rest → header.head? = some '#' := by
  unfold yarnEntry
  cases hlines : sectionLines text with
  | nil => simp
  | cons header rest =>
    have hheader : headerPackages header ≠ [] := by simp [headerPackages, segments_ne_nil]
    by_cases hcomment : header.head? = some '#'
    · simp [hcomment]
    · simp [hcomment, hheader]

theorem readYarnLock_eq_empty_iff {text : List Char} :
    readYarnLock text = ∅ ↔ ¬ ListsYarnEntry text := by
  rw [readYarnLock, OrderedMap.ofList_eq_empty_iff, List.flatMap_eq_nil_iff]
  simp only [yarnEntry_eq_nil_iff, ListsYarnEntry, not_exists, not_and, ne_eq,
    Classical.not_not]

/-- The members that are looked through are those of an object. -/
theorem mem_membersOrAbsent?_iff {v : Option Json} {e : String × Json} :
    e ∈ (membersOrAbsent? v).getD [] ↔ ∃ members, v = some (.object members) ∧ e ∈ members := by
  cases v with
  | none => simp [membersOrAbsent?]
  | some v =>
    cases v with
    | object members => simp [membersOrAbsent?]
    | _ =>
      simp only [membersOrAbsent?]
      split <;> simp

theorem lockEntry_eq_none_iff {key : String} {v : Json} :
    lockEntry key v = none ↔ ∀ package, v ≠ .object package := by
  cases v <;> simp [lockEntry]

theorem readPackageLock_eq_empty_iff {text : List Char} :
    readPackageLock text = ∅ ↔ ¬ ListsPackage text := by
  rw [readPackageLock, OrderedMap.ofList_eq_empty_iff, List.filterMap_eq_nil_iff]
  simp only [lockEntry_eq_none_iff, ListsPackage]
  cases hlock : Json.readSettled? text with
  | none => simp
  | some lock =>
    cases lock with
    | object entries =>
      change (∀ e ∈ (membersOrAbsent? (Json.member? "packages" (.object entries))).getD [], _) ↔ _
      simp only [mem_membersOrAbsent?_iff]
      constructor
      · rintro h ⟨lock, members, key, package, hlock', hmembers, hmem⟩
        obtain rfl := Option.some.inj hlock'
        exact h _ ⟨members, hmembers, hmem⟩ package rfl
      · rintro h ⟨key, v⟩ ⟨members, hmembers, hmem⟩ package rfl
        exact h ⟨_, members, key, package, rfl, hmembers, hmem⟩
    | _ => simp [Json.object?, Json.member?]

/-! ## Scanning a manifest -/

/-- A manifest that is read, among files each of which has bytes or cannot be opened.  It
  and the lock file of npm, if that has a text, are ordinary. -/
structure Source.Among (s : Source) (text : List Char) : Prop where
  ordinary : Json.IsOrdinary text
  text : s.text = .ok text
  beside : ∀ name e, s.beside name = .error e → ∃ cause path, e = .fault cause path
  ordinary_lock : ∀ lock, (s.beside "package-lock.json").bind Workspace.textOf = .ok lock →
    Json.IsOrdinary lock

/-- The bytes of a file, if it can be opened, are those of a text. -/
def Source.HasText (s : Source) (name : String) : Prop :=
  ∀ bytes, s.beside name = .ok bytes → Workspace.IsText bytes

/-- The text of a file, if it has one, is of some kind. -/
def Source.HasTextThat (s : Source) (name : String) (kind : List Char → Prop) : Prop :=
  ∃ text, (s.beside name).bind Workspace.textOf = .ok text ∧ kind text

theorem Source.not_hasTextThat_of_error {s : Source} {name : String} {kind : List Char → Prop}
    {e : FileError} (h : (s.beside name).bind Workspace.textOf = .error e) :
    ¬ s.HasTextThat name kind := by
  rintro ⟨text, htext, -⟩
  cases h.symm.trans htext

/-- The source without its lock files. -/
def Source.withoutLocks (s : Source) : Source :=
  { s with options := { s.options with lockFile := false } }

section
variable {s : Source} {text : List Char}

theorem yarnLockIn_of_fault {cause : Fault} {path : String}
    (h : s.beside "yarn.lock" = .error (.fault cause path)) : yarnLockIn s.beside = .ok ∅ := by
  rw [yarnLockIn, h]

theorem yarnLockIn_of_bytes {bytes : List UInt8} (h : s.beside "yarn.lock" = .ok bytes) :
    yarnLockIn s.beside = (Workspace.textOf bytes).map readYarnLock := by
  rw [yarnLockIn, h]

/-- The lock file of yarn is read if it has a text, or cannot be opened. -/
theorem exists_yarnLockIn_iff (h : s.Among text) :
    (∃ locked, yarnLockIn s.beside = .ok locked) ↔ s.HasText "yarn.lock" := by
  cases hbeside : s.beside "yarn.lock" with
  | error e =>
    obtain ⟨cause, path, rfl⟩ := h.beside _ _ hbeside
    refine iff_of_true ⟨_, yarnLockIn_of_fault hbeside⟩ fun bytes hbytes => ?_
    cases hbeside.symm.trans hbytes
  | ok bytes =>
    rw [yarnLockIn_of_bytes hbeside]
    by_cases htext : Workspace.IsText bytes
    · obtain ⟨t, rfl⟩ := htext
      rw [Workspace.textOf_encode]
      refine iff_of_true ⟨_, rfl⟩ fun bytes hbytes => ?_
      exact ⟨t, (Except.ok.inj (hbeside.symm.trans hbytes)).symm⟩
    · obtain ⟨fault, hfault⟩ := Workspace.exists_textOf_eq_error htext
      rw [hfault]
      refine iff_of_false ?_ fun hall => htext (hall bytes hbeside)
      rintro ⟨locked, hlocked⟩
      cases hlocked

theorem yarnLockIn_eq_empty (h : s.Among text) (htext : s.HasText "yarn.lock")
    (hlists : ¬ s.HasTextThat "yarn.lock" ListsYarnEntry) : yarnLockIn s.beside = .ok ∅ := by
  cases hbeside : s.beside "yarn.lock" with
  | error e =>
    obtain ⟨cause, path, rfl⟩ := h.beside _ _ hbeside
    exact yarnLockIn_of_fault hbeside
  | ok bytes =>
    obtain ⟨t, rfl⟩ := htext bytes hbeside
    have hnone : ¬ ListsYarnEntry (foldNewlines t) :=
      fun hlist => hlists ⟨_, by rw [hbeside]; exact Workspace.textOf_encode t, hlist⟩
    rw [yarnLockIn_of_bytes hbeside, Workspace.textOf_encode, Except.map,
      readYarnLock_eq_empty_iff.2 hnone]

theorem packageLockIn_eq_empty (hlists : ¬ s.HasTextThat "package-lock.json" ListsPackage) :
    packageLockIn s.beside = ∅ := by
  unfold packageLockIn
  split
  · next t ht => exact readPackageLock_eq_empty_iff.2 fun hlist => hlists ⟨t, ht, hlist⟩
  · rfl

/-- A manifest is scanned as the lock file of yarn can be read. -/
theorem exists_scanPackage_iff (h : s.Among text) (hlock : s.options.lockFile = true) :
    (∃ report, scanPackage s = .ok report) ↔ ∃ locked, yarnLockIn s.beside = .ok locked := by
  have hlocked : lockedFor .npm s = lockedIn s.beside := by
    rw [lockedFor, readsLocks, hlock]
    rfl
  rw [Language.scanPackage_eq, hlocked, h.text, lockedIn]
  cases yarnLockIn s.beside with
  | error e =>
    refine iff_of_false ?_ ?_
    · rintro ⟨report, h⟩
      cases h
    · rintro ⟨locked, h⟩
      cases h
  | ok locked => exact iff_of_true ⟨_, rfl⟩ ⟨_, rfl⟩

theorem lockedFor_eq_empty (h : s.Among text) (htext : s.HasText "yarn.lock")
    (hyarn : ¬ s.HasTextThat "yarn.lock" ListsYarnEntry)
    (hpackage : ¬ s.HasTextThat "package-lock.json" ListsPackage) :
    lockedFor .npm s = .ok ∅ := by
  unfold lockedFor
  split
  · rw [lockedIn, yarnLockIn_eq_empty h htext hyarn]
    change Except.ok (packageLockIn s.beside) = .ok ∅
    rw [packageLockIn_eq_empty hpackage]
  · rfl

/-- Without lock files a manifest is always scanned. -/
theorem scanPackage_withoutLocks (h : s.Among text) :
    scanPackage s.withoutLocks =
      .ok (manifestReport s.file ∅ (readManifest? s.options.dev text)) := by
  have hwithout : lockedFor .npm s.withoutLocks = .ok ∅ := rfl
  have htext : s.withoutLocks.text = .ok text := h.text
  rw [Language.scanPackage_eq, hwithout, htext]
  rfl

end

/-- **Unusable lock files leave a manifest to be scanned without them iff the one of yarn
  is a text.**  Where the manifest and the lock file of npm are ordinary, a manifest is
  scanned with lock files iff the `yarn.lock` beside it cannot be opened or has the bytes
  of a text.  If neither lock file lists a package, just then it is scanned as without
  lock files. -/
theorem lock_files_fall_back_iff {s : Source} {text : List Char} (h : s.Among text)
    (hlock : s.options.lockFile = true) :
    ((∃ report, scanPackage s = .ok report) ↔ s.HasText "yarn.lock") ∧
    (¬ s.HasTextThat "yarn.lock" ListsYarnEntry →
      ¬ s.HasTextThat "package-lock.json" ListsPackage →
      (scanPackage s = scanPackage s.withoutLocks ↔ s.HasText "yarn.lock")) := by
  have hscan := (exists_scanPackage_iff h hlock).trans (exists_yarnLockIn_iff h)
  refine ⟨hscan, fun hyarn hpackage => ⟨fun hsame => ?_, fun htext => ?_⟩⟩
  · exact hscan.1 ⟨_, hsame.trans (scanPackage_withoutLocks h)⟩
  · rw [scanPackage_withoutLocks h, Language.scanPackage_eq,
      lockedFor_eq_empty h htext hyarn hpackage, h.text]
    rfl

/-- The text of a manifest that requires one package. -/
def oneRequirement : List Char := "\x7b\"dependencies\": \x7b\"a\": \"1\"\x7d\x7d".toList

/-- This manifest with what stands in the places of the two lock files beside it. -/
def manifestAmong (yarn package : Except Fault (List UInt8)) : Source where
  file := "package.json"
  text := .ok oneRequirement
  beside name := (if name = "yarn.lock" then yarn else package).mapError (.fault · name)
  options := ⟨true, false⟩

theorem among_manifestAmong {yarn package : Except Fault (List UInt8)}
    (h : ∀ lock, ((manifestAmong yarn package).beside "package-lock.json").bind Workspace.textOf =
      .ok lock → Json.IsOrdinary lock) : (manifestAmong yarn package).Among oneRequirement where
  ordinary := by decide +kernel
  text := rfl
  beside name e he := by
    obtain ⟨cause, -, rfl⟩ := mapError_eq_error_iff.1 he
    exact ⟨cause, name, rfl⟩
  ordinary_lock := h

/-- A list where the packages of a lock file should stand. -/
def listedPackages : List Char := "\x7b\"packages\": [\x7b\x7d]\x7d".toList

/-- A folder in the place of `yarn.lock`, and this text in the other file. -/
def unusableLocks : Source := manifestAmong (.error .isDirectory) (.ok (Utf8.encode listedPackages))

theorem lock_files_fall_back_unusableLocks :
    unusableLocks.Among oneRequirement ∧ unusableLocks.options.lockFile = true ∧
      (∃ report, scanPackage unusableLocks = .ok report) ∧
      scanPackage unusableLocks = scanPackage unusableLocks.withoutLocks := by
  have hyarn : unusableLocks.beside "yarn.lock" = .error (.fault .isDirectory "yarn.lock") := rfl
  have hopened : (unusableLocks.beside "yarn.lock").bind Workspace.textOf =
      .error (.fault .isDirectory "yarn.lock") := rfl
  have htext : unusableLocks.HasText "yarn.lock" := by
    intro bytes hbytes
    cases hyarn.symm.trans hbytes
  have hpackage : (unusableLocks.beside "package-lock.json").bind Workspace.textOf =
      .ok listedPackages := Workspace.textOf_encode listedPackages
  have hnone : readPackageLock listedPackages = ∅ := by decide +kernel
  have hamong : unusableLocks.Among oneRequirement := by
    refine among_manifestAmong fun lock hlock => ?_
    obtain rfl : listedPackages = lock := Except.ok.inj (hpackage.symm.trans hlock)
    decide +kernel
  obtain ⟨hscan, hsame⟩ := lock_files_fall_back_iff hamong rfl
  refine ⟨hamong, rfl, hscan.2 htext, (hsame ?_ ?_).2 htext⟩
  · exact Source.not_hasTextThat_of_error hopened
  · rintro ⟨lock, hlock, hlists⟩
    obtain rfl : listedPackages = lock := Except.ok.inj (hpackage.symm.trans hlock)
    exact readPackageLock_eq_empty_iff.1 hnone hlists

/-- A byte that starts no character in the place of `yarn.lock`, and no other lock file. -/
def undecodableLock : Source := manifestAmong (.ok [0xFF]) (.error .missing)

/-- The byte keeps the manifest from being scanned, though no lock file lists a package. -/
theorem undecodable_lock_escapes :
    undecodableLock.Among oneRequirement ∧ undecodableLock.options.lockFile = true ∧
      ¬ undecodableLock.HasTextThat "yarn.lock" ListsYarnEntry ∧
      ¬ undecodableLock.HasTextThat "package-lock.json" ListsPackage ∧
      scanPackage undecodableLock = .error (.undecodable ⟨0, 1, 0xFF, .invalidStart⟩) ∧
      ∃ report, scanPackage undecodableLock.withoutLocks = .ok report := by
  have hyarn : (undecodableLock.beside "yarn.lock").bind Workspace.textOf =
      .error (.undecodable ⟨0, 1, 0xFF, .invalidStart⟩) := rfl
  have hpackage : (undecodableLock.beside "package-lock.json").bind Workspace.textOf =
      .error (.fault .missing "package-lock.json") := rfl
  have hamong : undecodableLock.Among oneRequirement := by
    refine among_manifestAmong fun lock hlock => ?_
    cases hpackage.symm.trans hlock
  refine ⟨hamong, rfl, ?_, ?_, rfl, _, rfl⟩
  · exact Source.not_hasTextThat_of_error hyarn
  · exact Source.not_hasTextThat_of_error hpackage

end DepGraph
