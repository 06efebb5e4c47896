/-
  DepGraph — what a scan reads, and why it fails.

  A scan sees one file and, for the package manifests of a run that reads lock
  files, the two lock files beside it.  Whatever these hold, it fails only if the
  file cannot be read, or if the lock file of yarn is no text.

  * `FileError.isOfReading`: the errors of opening and of decoding a file.
  * `lockFilesOf`: the files beside a file that a scan may read.
  * `Language.error_of_scan`: why a scan fails.
  * `Language.scan_congr`: a scan depends on nothing but what it reads.
-/
import DepGraph.Language.Basic
import DepGraph.Proofs.Attempt

namespace DepGraph

open DepGraph.Text Attempt

/-- A file cannot be opened, or its bytes are no text. -/
def FileError.isOfReading : FileError → Bool
  | .fault .. | .undecodable _ => true
  | .nullCharacter => false

theorem isOfReading_of_textOf {bytes : List UInt8} {e : FileError}
    (h : Workspace.textOf bytes = .error e) : e.isOfReading = true := by
  obtain ⟨fault, -, rfl⟩ := mapError_eq_error_iff.1 h
  rfl

/-! ## Lock files -/

/-- Lock files are read beside the files of a run. -/
def readsLocks (l : Language) (options : ScanOptions) : Bool := l = .npm && options.lockFile

/-- The files beside a file that a scan may read. -/
def lockFilesOf (l : Language) (options : ScanOptions) : List String :=
  if readsLocks l options then ["yarn.lock", "package-lock.json"] else []

/-- What the lock files beside a file hold, if a scan of it may read them. -/
def lockedFor (l : Language) (s : Source) : Except FileError Dependencies :=
  if readsLocks l s.options then lockedIn s.beside else .ok ∅

section
variable {beside beside' : String → Except FileError (List UInt8)} {e : FileError}

/-- The lock file of yarn keeps a manifest from being scanned if it cannot even be
  asked for, or if its bytes are no text. -/
theorem error_of_yarnLockIn (h : yarnLockIn beside = .error e) :
    beside "yarn.lock" = .error e ∨
      ∃ bytes, beside "yarn.lock" = .ok bytes ∧ Workspace.textOf bytes = .error e := by
  unfold yarnLockIn at h
  split at h
  · cases h
  · next hbeside =>
    cases h
    exact .inl hbeside
  · next bytes hbeside => exact .inr ⟨bytes, hbeside, map_eq_error_iff.1 h⟩

theorem error_of_lockedIn (h : lockedIn beside = .error e) : yarnLockIn beside = .error e := by
  rcases bind_eq_error_iff.1 h with h | ⟨locked, -, h⟩
  · exact h
  · cases h

theorem lockedIn_congr (hyarn : beside "yarn.lock" = beside' "yarn.lock")
    (hpackage : beside "package-lock.json" = beside' "package-lock.json") :
    lockedIn beside = lockedIn beside' := by
  simp only [lockedIn, yarnLockIn, packageLockIn, hyarn, hpackage]

end

section
variable {l : Language} {s s' : Source} {e : FileError}

theorem error_of_lockedFor (h : lockedFor l s = .error e) :
    "yarn.lock" ∈ lockFilesOf l s.options ∧ yarnLockIn s.beside = .error e := by
  unfold lockedFor at h
  unfold lockFilesOf
  cases hreads : readsLocks l s.options with
  | false =>
    rw [hreads] at h
    cases h
  | true =>
    rw [hreads] at h
    exact ⟨List.mem_cons_self, error_of_lockedIn h⟩

theorem lockedFor_congr (hoptions : s.options = s'.options)
    (h : ∀ name ∈ lockFilesOf l s.options, s.beside name = s'.beside name) :
    lockedFor l s = lockedFor l s' := by
  unfold lockFilesOf at h
  unfold lockedFor
  rw [← hoptions]
  cases hreads : readsLocks l s.options with
  | false => rfl
  | true =>
    rw [hreads] at h
    exact lockedIn_congr (h _ (by simp)) (h _ (by simp))

end

/-! ## Scans -/

namespace Language

variable {l : Language} {s s' : Source} {e : FileError}

theorem scanPackage_eq (s : Source) :
    scanPackage s = (lockedFor .npm s).bind fun locked => s.text.map fun text =>
      manifestReport s.file locked (readManifest? s.options.dev text) := by
  unfold scanPackage lockedFor readsLocks
  cases s.options.lockFile <;> cases s.text <;> rfl

/-- A scanner turns what the lock files hold and the text of the file into a
  report. -/
theorem exists_scan_eq (l : Language) : ∃ report : String → ScanOptions → Dependencies →
    List Char → Report, ∀ s : Source,
      l.scan s =
        (lockedFor l s).bind fun locked => s.text.map (report s.file s.options locked) := by
  cases l with
  | npm =>
    exact ⟨fun file options locked text =>
      manifestReport file locked (readManifest? options.dev text), scanPackage_eq⟩
  | typescript | javascript => exact ⟨fun _ _ _ => scanScript, fun _ => rfl⟩
  | java => exact ⟨fun file _ _ => scanPackages file, fun _ => rfl⟩
  | csharp => exact ⟨fun file _ _ => scanNamespaces file, fun _ => rfl⟩
  | c | cpp => exact ⟨fun _ _ _ => scanIncludes, fun _ => rfl⟩
  | python => exact ⟨fun _ _ _ => scanPython, fun _ => rfl⟩
  | raw => exact ⟨fun _ _ _ => scanRaw, fun _ => rfl⟩

/-- A scan fails because the file has no text, or because of the lock file of yarn
  beside a manifest. -/
theorem error_of_scan (h : l.scan s = .error e) :
    s.text = .error e ∨
      "yarn.lock" ∈ lockFilesOf l s.options ∧ yarnLockIn s.beside = .error e := by
  obtain ⟨report, hscan⟩ := exists_scan_eq l
  rw [hscan] at h
  rcases bind_eq_error_iff.1 h with h | ⟨locked, -, h⟩
  · exact .inr (error_of_lockedFor h)
  · exact .inl (map_eq_error_iff.1 h)

/-- A scan depends on the file, on the options and on the lock files that it may
  read. -/
theorem scan_congr (l : Language) (hfile : s.file = s'.file) (htext : s.text = s'.text)
    (hoptions : s.options = s'.options)
    (hbeside : ∀ name ∈ lockFilesOf l s.options, s.beside name = s'.beside name) :
    l.scan s = l.scan s' := by
  obtain ⟨report, hscan⟩ := exists_scan_eq l
  rw [hscan, hscan, lockedFor_congr hoptions hbeside, hfile, htext, hoptions]

end Language

end DepGraph
