/-
  DepGraph — relative module names.

  A relative name starts with dots: the first stands for the package that refers to it,
  and each further one for the package around that.  Written as a path it climbs by as
  many folders, and seen from a directory it is the path of the module within the tree.

  * `climb`: the segments that leading dots stand for.
  * `ofList_modulePath`: the path of a relative name, by its segments.
  * `foldl_parents`, `foldl_climb`: what becomes of ways up.
  * `cancelDots_climb`: a path that climbs, seen from a directory.
  * `resolvePath_strict`: what strict matching compares.
  * `relative_module_resolved`: the file that a relative name means.
-/
import DepGraph.Language.Basic
import DepGraph.Proofs.Path.Matches
import DepGraph.Proofs.Path.Normal

namespace DepGraph

open DepGraph.Text

/-- A segment that stands for a folder or a file of its own. -/
def IsEntryName (s : String) : Prop := s ≠ "" ∧ s ≠ "." ∧ s ≠ ".." ∧ '/' ∉ s.toList

/-- A part of a module name. -/
def IsNamePart (s : String) : Prop := s ≠ "" ∧ '.' ∉ s.toList ∧ '/' ∉ s.toList

/-- A relative module name: dots, and parts with dots between them. -/
def relativeName (dots : Nat) (parts : List String) : List Char :=
  List.replicate dots '.' ++ (join "." parts).toList

theorem IsNamePart.isEntryName {s : String} (h : IsNamePart s) : IsEntryName s := by
  refine ⟨h.1, ?_, ?_, h.2.2⟩
  · rintro rfl
    exact h.2.1 (by decide)
  · rintro rfl
    exact h.2.1 (by decide)

theorem IsEntryName.isPlain {s : String} (h : IsEntryName s) : IsPlain s := ⟨h.2.1, h.2.2.1⟩

/-! ## Relative names as paths -/

/-- The segments that the dots in front of a name stand for. -/
def climb : Nat → List String
  | 0 => []
  | 1 => ["."]
  | n + 2 => List.replicate (n + 1) ".."

theorem dot_toList : ".".toList = ['.'] := by decide

theorem slash_not_mem_climb {dots : Nat} : ∀ s ∈ climb dots, '/' ∉ s.toList := by
  intro s hs
  match dots, hs with
  | 1, hs =>
    rw [climb, List.mem_singleton] at hs
    subst hs
    decide
  | n + 2, hs =>
    obtain rfl := List.eq_of_mem_replicate hs
    decide

/-- A way up is a path that climbs. -/
theorem wayUp_append (dots : Nat) {parts : List String} (h : parts ≠ []) :
    String.ofList (wayUp dots) ++ join "/" parts = join "/" (climb dots ++ parts) := by
  match dots with
  | 0 => rfl
  | 1 =>
    have hdot : String.ofList (wayUp 1) = "." ++ "/" := by decide
    rw [hdot]
    exact (join_cons h).symm
  | n + 2 =>
    have hstep (m : Nat) : String.ofList (List.replicate m ['.', '.', '/']).flatten ++
        join "/" parts = join "/" (List.replicate m ".." ++ parts) := by
      induction m with
      | zero => rfl
      | succ m ih =>
        rw [List.replicate_succ, List.replicate_succ, List.cons_append, join_cons (by simp [h]),
          ← ih, List.flatten_cons, String.ofList_append, String.append_assoc]
        rfl
    exact hstep (n + 1)

/-- Each dot between parts becomes a slash. -/
theorem map_toList_join {parts : List String} (h : ∀ p ∈ parts, '.' ∉ p.toList) :
    (join "." parts).toList.map (fun c => if c == '.' then '/' else c) =
      (join "/" parts).toList := by
  have hkept (p : String) (hp : '.' ∉ p.toList) :
      p.toList.map (fun c => if c == '.' then '/' else c) = p.toList := by
    refine (List.map_congr_left fun c hc => ?_).trans (List.map_id _)
    have hne : c ≠ '.' := fun heq => hp (heq ▸ hc)
    simp [hne]
  simp only [join, String.toList_intercalate, dot_toList, slash_toList]
  induction parts with
  | nil => rfl
  | cons p rest ih =>
    rw [List.forall_mem_cons] at h
    cases rest with
    | nil => simpa using hkept p h.1
    | cons q rest =>
      rw [List.map_cons, intercalate_cons_of_ne_nil (by simp),
        intercalate_cons_of_ne_nil (by simp), List.map_append, List.map_append, hkept p h.1,
        ih h.2]
      rfl

section
variable {dots : Nat} {parts : List String}

theorem takeWhile_relativeName (hne : parts ≠ []) (hparts : ∀ p ∈ parts, IsNamePart p) :
    (relativeName dots parts).takeWhile (· == '.') = List.replicate dots '.' := by
  obtain ⟨p, rest, rfl⟩ := List.exists_cons_of_ne_nil hne
  obtain ⟨hp, hdot, -⟩ := hparts p List.mem_cons_self
  -- the first part starts with a character that is no dot
  obtain ⟨c, cs, hc⟩ := List.exists_cons_of_ne_nil (fun h => hp (String.toList_eq_nil_iff.1 h))
  have hhead : c ≠ '.' := by
    rintro rfl
    exact hdot (by simp [hc])
  have hjoin : ∃ more, (join "." (p :: rest)).toList = c :: more := by
    rw [join, String.toList_intercalate, List.map_cons, hc]
    cases rest with
    | nil => exact ⟨cs, by simp⟩
    | cons q rest => exact ⟨_, by rw [intercalate_cons_of_ne_nil (by simp)]; rfl⟩
  obtain ⟨more, hmore⟩ := hjoin
  rw [relativeName, hmore, List.takeWhile_append_of_pos (by simp)]
  simp [hhead]

/-- The path of a relative name climbs, and goes down by the parts of the name. -/
theorem ofList_modulePath (hne : parts ≠ []) (hparts : ∀ p ∈ parts, IsNamePart p) :
    String.ofList (modulePath (relativeName dots parts)) = join "/" (climb dots ++ parts) := by
  have hdrop : (relativeName dots parts).drop dots = (join "." parts).toList := by
    simp [relativeName]
  rw [modulePath, takeWhile_relativeName hne hparts, List.length_replicate, hdrop,
    map_toList_join fun p hp => (hparts p hp).2.1, String.ofList_append, String.ofList_toList,
    wayUp_append dots hne]

end

/-! ## Ways up within a directory -/

section
variable {kept : List String}

/-- Each way up takes away one of the segments that are kept. -/
theorem foldl_parents (n : Nat) :
    (List.replicate n "..").foldl keepSegment kept = kept.drop n := by
  induction n generalizing kept with
  | zero => rfl
  | succ n ih =>
    have hstep : keepSegment kept ".." = kept.drop 1 := rfl
    rw [List.replicate_succ, List.foldl_cons, hstep, ih, List.drop_drop, Nat.add_comm]

theorem foldl_climb {dots : Nat} (h : 1 ≤ dots) :
    (climb dots).foldl keepSegment kept = kept.drop (dots - 1) := by
  match dots, h with
  | 1, _ => rfl
  | n + 2, _ => exact foldl_parents (n + 1)

end

section
variable {folders tail : List String} {dots : Nat}

/-- Climbing leaves as many folders as there are above. -/
theorem keptSegments_climb (hfolders : ∀ f ∈ folders, IsEntryName f)
    (htail : ∀ s ∈ tail, IsEntryName s) (h : 1 ≤ dots) :
    keptSegments (folders ++ climb dots ++ tail) =
      folders.take (folders.length + 1 - dots) ++ tail := by
  have hlen : folders.length + 1 - dots = folders.length - (dots - 1) := by omega
  rw [keptSegments, List.foldl_append, List.foldl_append,
    foldl_keepSegment fun f hf => (hfolders f hf).isPlain, List.append_nil, foldl_climb h,
    foldl_keepSegment fun s hs => (htail s hs).isPlain, List.reverse_append,
    List.reverse_reverse, List.reverse_drop, List.length_reverse, List.reverse_reverse, hlen]

/-- A path seen from a directory has the segments of both. -/
theorem joinPath_join (hfolders : ∀ f ∈ folders, IsEntryName f) (htail : tail ≠ []) :
    joinPath (join "/" folders) (join "/" tail) = join "/" (folders ++ tail) := by
  cases folders with
  | nil => rfl
  | cons f rest =>
    have hf : f ≠ "" := (hfolders f List.mem_cons_self).1
    have hdir : join "/" (f :: rest) ≠ "" := by
      intro hempty
      have hsplit := split_join slash_toList (List.cons_ne_nil f rest)
        fun p hp => (hfolders p hp).2.2.2
      -- the empty directory has one segment, which is empty
      rw [hempty] at hsplit
      exact hf (List.cons.inj hsplit).1.symm
    rw [joinPath, if_neg hdir, join_append (by simp) htail]

/-- A path that climbs, seen from a directory. -/
theorem cancelDots_climb (hfolders : ∀ f ∈ folders, IsEntryName f)
    (hne : tail ≠ []) (htail : ∀ s ∈ tail, IsEntryName s) (h : 1 ≤ dots) :
    cancelDots (joinPath (join "/" folders) (join "/" (climb dots ++ tail))) =
      join "/" (folders.take (folders.length + 1 - dots) ++ tail) := by
  have hslash : ∀ s ∈ folders ++ (climb dots ++ tail), '/' ∉ s.toList := by
    intro s hs
    rcases List.mem_append.1 hs with hs | hs
    · exact (hfolders s hs).2.2.2
    rcases List.mem_append.1 hs with hs | hs
    · exact slash_not_mem_climb s hs
    · exact (htail s hs).2.2.2
  rw [joinPath_join hfolders (by simp [hne]), cancelDots,
    split_join slash_toList (by simp [hne]) hslash, ← List.append_assoc,
    keptSegments_climb hfolders htail h]

end

/-! ## The file that a relative name means -/

theorem find?_beq (files : List String) (name : String) :
    files.find? (· == name) = if name ∈ files then some name else none := by
  split
  · next hmem =>
    obtain ⟨file, hfile⟩ := Option.isSome_iff_exists.1
      (List.find?_isSome (p := (· == name)) |>.2 ⟨name, hmem, beq_self_eq_true name⟩)
    have hname : (file == name) = true := List.find?_some (p := (· == name)) hfile
    rw [hfile, eq_of_beq hname]
  · next hmem =>
    refine List.find?_eq_none.2 fun file hfile heq => hmem ?_
    rwa [← eq_of_beq heq]

/-- Strict matching looks for the joined normal forms among the files. -/
theorem resolvePath_strict (raw directory : String) (files suffixes : List String) :
    resolvePath raw directory files suffixes true =
      ((writtenForms raw suffixes).map fun form => (Candidate.ofText directory form).joined).find?
        (· ∈ files) := by
  have haccepts (form : String) : (Candidate.ofText directory form).accepts true =
      (· == (Candidate.ofText directory form).joined) := by
    funext file
    simp [Candidate.accepts]
  rw [resolvePath_eq]
  induction writtenForms raw suffixes with
  | nil => rfl
  | cons form rest ih =>
    rw [List.findSome?_cons, haccepts, find?_beq, List.map_cons, List.find?_cons]
    by_cases hmem : (Candidate.ofText directory form).joined ∈ files
    · simp [hmem]
    · simp [hmem, ih]

/-- A path that climbs is seen from the directory that refers to it. -/
theorem joined_climb {directory : String} {dots : Nat} {tail : List String} (hdots : 1 ≤ dots)
    (hne : tail ≠ []) : (Candidate.ofText directory (join "/" (climb dots ++ tail))).joined =
      cancelDots (joinPath directory (join "/" (climb dots ++ tail))) := by
  have hstart : ¬ startsWith (join "/" (climb dots ++ tail)) "/" = true := by
    rw [startsWith_slash_iff, ← wayUp_append dots hne, String.toList_append, String.toList_ofList]
    match dots, hdots with
    | 1, _ => simp [wayUp]
    | n + 2, _ => simp [wayUp, List.replicate_succ]
  rw [Candidate.ofText, if_neg hstart]

/-- Whatever is written behind a part of a name, no way up results. -/
theorem IsNamePart.append {s suffix : String} (h : IsNamePart s) (hslash : '/' ∉ suffix.toList) :
    IsEntryName (s ++ suffix) := by
  obtain ⟨hne, hdot, hs⟩ := h
  obtain ⟨c, cs, hc⟩ := List.exists_cons_of_ne_nil (fun h => hne (String.toList_eq_nil_iff.1 h))
  have hhead : c ≠ '.' := by
    rintro rfl
    exact hdot (by simp [hc])
  refine ⟨fun heq => ?_, fun heq => ?_, fun heq => ?_, by simp [hs, hslash]⟩
  all_goals
    have hlist := congrArg String.toList heq
    simp [hc, hhead] at hlist

theorem join_concat (front : List String) (last suffix : String) :
    join "/" (front ++ [last]) ++ suffix = join "/" (front ++ [last ++ suffix]) := by
  cases front with
  | nil => rfl
  | cons p rest =>
    rw [join_append (by simp) (by simp), join_append (by simp) (by simp), String.append_assoc]
    rfl

theorem join_child {front : List String} (name : String) (h : front ≠ []) :
    join "/" front ++ ("/" ++ name) = join "/" (front ++ [name]) := by
  rw [join_append h (List.cons_ne_nil name []), String.append_assoc]
  rfl

/-- The ends of the paths that a module may have: its own, that of a source file, and that
  of a package. -/
def moduleEnds (outer : List String) (name : String) : List (List String) :=
  [outer ++ [name], outer ++ [name ++ ".py"], outer ++ [name, "__init__.py"]]

theorem writtenForms_module (front outer : List String) (name : String) :
    writtenForms (join "/" (front ++ (outer ++ [name]))) Language.python.suffixes =
      (moduleEnds outer name).map fun tail => join "/" (front ++ tail) := by
  have hsource := join_concat (front ++ outer) name ".py"
  have hne : front ++ outer ++ [name] ≠ [] := by simp
  have hpackage := join_child "__init__.py" hne
  simp only [List.append_assoc, List.cons_append, List.nil_append] at hsource hpackage
  simp only [writtenForms, Language.suffixes, moduleEnds, List.map_cons, List.map_nil, ← hsource,
    ← hpackage]
  rfl

theorem isEntryName_of_mem_moduleEnds {outer tail : List String} {name : String}
    (h : ∀ p ∈ outer ++ [name], IsNamePart p) (htail : tail ∈ moduleEnds outer name) :
    tail ≠ [] ∧ ∀ s ∈ tail, IsEntryName s := by
  have hname : IsNamePart name := h name (by simp)
  have houter : ∀ s ∈ outer, IsEntryName s := fun s hs => (h s (by simp [hs])).isEntryName
  have hsource : IsEntryName (name ++ ".py") := hname.append (by decide)
  have hpackage : IsEntryName "__init__.py" := by unfold IsEntryName; decide
  simp only [moduleEnds, List.mem_cons, List.not_mem_nil, or_false] at htail
  rcases htail with rfl | rfl | rfl
  · exact ⟨by simp, by simpa [or_imp, forall_and] using ⟨houter, hname.isEntryName⟩⟩
  · exact ⟨by simp, by simpa [or_imp, forall_and] using ⟨houter, hsource⟩⟩
  · exact ⟨by simp, by simpa [or_imp, forall_and] using ⟨houter, hname.isEntryName, hpackage⟩⟩

/-- **A relative name means a module around the directory that refers to it**: one dot
  stands for the directory, and each further one for the folder above.  Strict matching
  finds the path of the module, the source file or the package file, in this order, and
  nothing else. -/
theorem relative_module_resolved (folders parts : List String) (dots : Nat)
    (hfolders : ∀ f ∈ folders, IsEntryName f) (hdots : 1 ≤ dots ∧ dots ≤ folders.length + 1)
    (hparts : parts ≠ [] ∧ ∀ p ∈ parts, IsNamePart p) :
    let reference := String.ofList (modulePath (relativeName dots parts))
    let path := join "/" (folders.take (folders.length + 1 - dots) ++ parts)
    cancelDots (joinPath (join "/" folders) reference) = path ∧
      ∀ files, resolvePath reference (join "/" folders) files Language.python.suffixes true =
        [path, path ++ ".py", path ++ "/__init__.py"].find? (· ∈ files) := by
  intro reference path
  obtain ⟨hne, hparts⟩ := hparts
  have hreference : reference = join "/" (climb dots ++ parts) := ofList_modulePath hne hparts
  constructor
  · rw [hreference]
    exact cancelDots_climb hfolders hne (fun p hp => (hparts p hp).isEntryName) hdots.1
  · intro files
    rcases List.eq_nil_or_concat' parts with rfl | ⟨outer, name, rfl⟩
    · exact absurd rfl hne
    have hpaths : [path, path ++ ".py", path ++ "/__init__.py"] =
        (moduleEnds outer name).map fun tail =>
          join "/" (folders.take (folders.length + 1 - dots) ++ tail) :=
      writtenForms_module ..
    rw [resolvePath_strict, hreference, writtenForms_module, hpaths, List.map_map]
    congr 1
    refine List.map_congr_left fun tail htail => ?_
    obtain ⟨htne, hentry⟩ := isEntryName_of_mem_moduleEnds hparts htail
    exact (joined_climb hdots.1 htne).trans (cancelDots_climb hfolders htne hentry hdots.1)

/-- A name that climbs from the deeper of two folders to the root of the tree, where a
  package and a source file have its path. -/
theorem relative_module_resolved_atRoot :
    (∀ f ∈ ["app", "core"], IsEntryName f) ∧ (1 ≤ 3 ∧ 3 ≤ ["app", "core"].length + 1) ∧
      (["lib", "io"] ≠ [] ∧ ∀ p ∈ ["lib", "io"], IsNamePart p) ∧
      String.ofList (modulePath (relativeName 3 ["lib", "io"])) = "../../lib/io" ∧
      cancelDots (joinPath "app/core" "../../lib/io") = "lib/io" ∧
      resolvePath "../../lib/io" "app/core" ["lib/io/__init__.py", "lib/io.ts", "lib/io.py"]
        Language.python.suffixes true = some "lib/io.py" := by
  have hfolders : ∀ f ∈ ["app", "core"], IsEntryName f := by unfold IsEntryName; decide
  have hdots : 1 ≤ 3 ∧ 3 ≤ ["app", "core"].length + 1 := by decide
  have hparts : ["lib", "io"] ≠ [] ∧ ∀ p ∈ ["lib", "io"], IsNamePart p := by
    unfold IsNamePart
    decide
  have hreference : String.ofList (modulePath (relativeName 3 ["lib", "io"])) = "../../lib/io" := by
    decide
  obtain ⟨hpath, hfile⟩ := relative_module_resolved ["app", "core"] ["lib", "io"] 3 hfolders hdots
    hparts
  rw [hreference] at hpath hfile
  exact ⟨hfolders, hdots, hparts, hreference, hpath, hfile _⟩

end DepGraph
