/-
  DepGraph — the first match of a reference.

  What a written form of a reference matches is said without the search: the file
  that is its joined normal form and, if matching is loose, the files that are its own
  normal form or end with a slash and this form.  A search goes through the forms, and
  for each of them through the files; so it finds the match whose places come first,
  the place of the form being compared before that of the file.

  * `IsJoined`, `EndsInForm`, `Matches`: what a written form matches.
  * `MatchAt`, `FirstMatch`: matches by their places, and the first of them.
  * `accepts_iff`: the test of a candidate is this matching.
  * `resolvePath_eq_some_iff`, `resolvePath_eq_none_iff`: a search finds the first
    match, and nothing only if there is none.
  * `loose_of_strict`: loose matching finds a file wherever strict matching does.
  * `loose_ne_strict_vendored`: it need not be the same file.
-/
import Mathlib.Data.List.TakeWhile
import Mathlib.Data.Prod.Lex
import Mathlib.Order.Nat
import DepGraph.Path.Resolution
import DepGraph.Proofs.Text.Segments

namespace DepGraph

open DepGraph.Text

/-! ## What a written form matches -/

/-- The forms in which a reference is tried. -/
def writtenForms (raw : String) (suffixes : List String) : List String :=
  raw :: suffixes.map (raw ++ ·)

/-- A file is the joined normal form of a written form.  A form that starts with a
  slash is rooted at the tree, and the slashes before its normal form are left out;
  any other form is seen from a directory. -/
def IsJoined (directory form file : String) : Prop :=
  if startsWith form "/" then
    ∃ slashes, cancelDots form = slashes ++ file ∧ (∀ c ∈ slashes.toList, c = '/') ∧
      ¬ startsWith file "/"
  else file = cancelDots (joinPath directory form)

/-- A file is the normal form of a written form, or ends with a slash and this. -/
def EndsInForm (form file : String) : Prop :=
  file = cancelDots form ∨ ∃ front, file = front ++ ("/" ++ cancelDots form)

/-- A file is matched by a written form: exactly, or loosely if matching is not
  strict. -/
def Matches (strict : Bool) (directory form file : String) : Prop :=
  IsJoined directory form file ∨ strict = false ∧ EndsInForm form file

section
variable {strict : Bool} {directory form file : String}

theorem dropWhile_eq_iff {p : Char → Bool} {l rest : List Char} :
    l.dropWhile p = rest ↔
      ∃ front, l = front ++ rest ∧ (∀ c ∈ front, p c = true) ∧ ∀ c ∈ rest.head?, p c = false := by
  constructor
  · rintro rfl
    refine ⟨l.takeWhile p, List.takeWhile_append_dropWhile.symm,
      fun c => List.mem_takeWhile_imp, fun c hc => ?_⟩
    simpa [Option.mem_def.1 hc] using List.head?_dropWhile_not p l
  · rintro ⟨front, rfl, hfront, hrest⟩
    rw [List.dropWhile_append_of_pos hfront]
    cases rest with
    | nil => rfl
    | cons c rest => exact List.dropWhile_cons_of_neg (by simp [hrest c rfl])

theorem startsWith_slash_iff : startsWith file "/" = true ↔ file.toList.head? = some '/' := by
  rw [startsWith, slash_toList]
  cases file.toList with
  | nil => simp
  | cons c rest => simpa using eq_comm

theorem isJoined_iff : file = (Candidate.ofText directory form).joined ↔
    IsJoined directory form file := by
  unfold Candidate.ofText IsJoined
  split
  · rw [eq_comm, ← String.toList_inj, String.toList_ofList, dropWhile_eq_iff]
    constructor
    · rintro ⟨front, heq, hfront, hfile⟩
      refine ⟨String.ofList front, ?_, by simpa using hfront, ?_⟩
      · rw [← String.toList_inj, String.toList_append, String.toList_ofList, heq]
      · rw [startsWith_slash_iff]
        exact fun hhead => by simpa using hfile '/' hhead
    · rintro ⟨slashes, heq, hslashes, hfile⟩
      refine ⟨slashes.toList, ?_, by simpa using hslashes, fun c hc => ?_⟩
      · rw [heq, String.toList_append]
      · rw [startsWith_slash_iff] at hfile
        have hne : c ≠ '/' := fun hslash => hfile (hslash ▸ hc)
        simpa using hne
  · rfl

theorem normalized_ofText : (Candidate.ofText directory form).normalized = cancelDots form := by
  unfold Candidate.ofText
  split <;> rfl

theorem accepts_iff : (Candidate.ofText directory form).accepts strict file = true ↔
    Matches strict directory form file := by
  rw [Candidate.accepts, Bool.or_eq_true, Bool.and_eq_true, Bool.or_eq_true, beq_iff_eq,
    beq_iff_eq, endsWith_iff, normalized_ofText, isJoined_iff, Bool.not_eq_true', Matches,
    EndsInForm]

end

/-! ## Matches by their places -/

/-- A file is matched, at the places of a written form and of the file. -/
def MatchAt (strict : Bool) (directory : String) (forms files : List String) (place : ℕ × ℕ)
    (file : String) : Prop :=
  files[place.2]? = some file ∧
    ∃ form, forms[place.1]? = some form ∧ Matches strict directory form file

/-- A file is matched, and at no earlier places is any file matched. -/
structure FirstMatch (strict : Bool) (directory : String) (forms files : List String)
    (place : ℕ × ℕ) (file : String) : Prop where
  matchAt : MatchAt strict directory forms files place file
  first : ∀ other found, MatchAt strict directory forms files other found →
    toLex place ≤ toLex other

section
variable {strict : Bool} {directory raw file : String} {forms files suffixes : List String}

theorem FirstMatch.place_unique {place place' : ℕ × ℕ} {file' : String}
    (h : FirstMatch strict directory forms files place file)
    (h' : FirstMatch strict directory forms files place' file') : place = place' :=
  toLex.injective (le_antisymm (h.first _ _ h'.matchAt) (h'.first _ _ h.matchAt))

theorem FirstMatch.unique {place place' : ℕ × ℕ} {file' : String}
    (h : FirstMatch strict directory forms files place file)
    (h' : FirstMatch strict directory forms files place' file') : file = file' := by
  obtain rfl := h.place_unique h'
  exact Option.some.inj (h.matchAt.1.symm.trans h'.matchAt.1)

theorem resolvePath_eq (raw directory : String) (files suffixes : List String) (strict : Bool) :
    resolvePath raw directory files suffixes strict =
      (writtenForms raw suffixes).findSome? fun form =>
        files.find? ((Candidate.ofText directory form).accepts strict) :=
  List.findSome?_map

theorem exists_firstMatch
    (h : resolvePath raw directory files suffixes strict = some file) :
    ∃ place, FirstMatch strict directory (writtenForms raw suffixes) files place file := by
  rw [resolvePath_eq, List.findSome?_eq_some_iff] at h
  obtain ⟨before, form, after, hforms, hfind, hbefore⟩ := h
  obtain ⟨haccepts, j, hj, hfile, hskipped⟩ := List.find?_eq_some_iff_getElem.1 hfind
  refine ⟨(before.length, j), ⟨?_, form, ?_, accepts_iff.1 haccepts⟩, ?_⟩
  · rw [List.getElem?_eq_getElem hj, hfile]
  · rw [hforms, List.getElem?_append_right (Nat.le_refl _), Nat.sub_self, List.getElem?_cons_zero]
  · rintro ⟨i', j'⟩ found ⟨hfound, form', hform', hmatch⟩
    rw [Prod.Lex.toLex_le_toLex]
    rcases Nat.lt_trichotomy i' before.length with hlt | rfl | hlt
    · -- an earlier form matches no file
      rw [hforms, List.getElem?_append_left hlt] at hform'
      have hnone := List.find?_eq_none.1 (hbefore form' (List.mem_of_getElem? hform')) found
        (List.mem_of_getElem? hfound)
      exact absurd (accepts_iff.2 hmatch) hnone
    · -- the same form matches no earlier file
      rw [hforms, List.getElem?_append_right (Nat.le_refl _), Nat.sub_self,
        List.getElem?_cons_zero, Option.some.injEq] at hform'
      subst hform'
      refine .inr ⟨rfl, Nat.le_of_not_lt fun hlt => ?_⟩
      obtain ⟨hj', rfl⟩ := List.getElem?_eq_some_iff.1 hfound
      have hskip := hskipped j' hlt
      rw [accepts_iff.2 hmatch] at hskip
      cases hskip
    · exact .inl hlt

theorem resolvePath_eq_none_iff :
    resolvePath raw directory files suffixes strict = none ↔
      ∀ place found, ¬ MatchAt strict directory (writtenForms raw suffixes) files place found := by
  rw [resolvePath_eq, List.findSome?_eq_none_iff]
  simp only [List.find?_eq_none, accepts_iff]
  constructor
  · rintro h place found ⟨hfound, form, hform, hmatch⟩
    exact h form (List.mem_of_getElem? hform) found (List.mem_of_getElem? hfound) hmatch
  · intro h form hform found hfound hmatch
    obtain ⟨i, hi⟩ := List.mem_iff_getElem?.1 hform
    obtain ⟨j, hj⟩ := List.mem_iff_getElem?.1 hfound
    exact h (i, j) found ⟨hj, form, hi, hmatch⟩

/-- **A search finds the first match.** -/
theorem resolvePath_eq_some_iff :
    resolvePath raw directory files suffixes strict = some file ↔
      ∃ place, FirstMatch strict directory (writtenForms raw suffixes) files place file := by
  constructor
  · exact exists_firstMatch
  · rintro ⟨place, hfirst⟩
    cases hfound : resolvePath raw directory files suffixes strict with
    | none => exact absurd hfirst.matchAt (resolvePath_eq_none_iff.1 hfound place file)
    | some found =>
      obtain ⟨place', hfirst'⟩ := exists_firstMatch hfound
      rw [hfirst'.unique hfirst]

/-! ## Loose and strict matching -/

theorem MatchAt.loose {place : ℕ × ℕ} (h : MatchAt true directory forms files place file) :
    MatchAt false directory forms files place file := by
  obtain ⟨hfile, form, hform, hjoined | ⟨hfalse, -⟩⟩ := h
  · exact ⟨hfile, form, hform, .inl hjoined⟩
  · cases hfalse

end

/-- **Loose matching finds a file wherever strict matching does**: the same file,
  unless at earlier places, the place of the written form being compared first, a
  file is matched that is not the joined normal form.  Then the first such file is
  found. -/
theorem loose_of_strict {raw directory file : String} {files suffixes : List String}
    (h : resolvePath raw directory files suffixes true = some file) :
    ∃ found, resolvePath raw directory files suffixes false = some found ∧
      (found = file ∨ ∃ place earlier form,
        FirstMatch true directory (writtenForms raw suffixes) files place file ∧
        FirstMatch false directory (writtenForms raw suffixes) files earlier found ∧
        toLex earlier < toLex place ∧ (writtenForms raw suffixes)[earlier.1]? = some form ∧
        EndsInForm form found ∧ ¬ IsJoined directory form found) := by
  obtain ⟨place, hstrict⟩ := resolvePath_eq_some_iff.1 h
  cases hfound : resolvePath raw directory files suffixes false with
  | none => exact absurd hstrict.matchAt.loose (resolvePath_eq_none_iff.1 hfound place file)
  | some found =>
    obtain ⟨earlier, hloose⟩ := resolvePath_eq_some_iff.1 hfound
    refine ⟨found, rfl, ?_⟩
    rcases (hloose.first _ _ hstrict.matchAt.loose).eq_or_lt with heq | hlt
    · -- at the same places stands the same file
      obtain rfl := toLex.injective heq
      exact .inl (Option.some.inj (hloose.matchAt.1.symm.trans hstrict.matchAt.1))
    · obtain ⟨hfile, form, hform, hmatch⟩ := hloose.matchAt
      have hexact : ¬ IsJoined directory form found := fun hjoined =>
        absurd (hstrict.first _ _ ⟨hfile, form, hform, .inl hjoined⟩) (not_le_of_gt hlt)
      exact .inr ⟨place, earlier, form, hstrict, hloose, hlt, hform,
        (hmatch.resolve_left hexact).2, hexact⟩

/-- A file, and one of the same name in a folder that is listed before it. -/
def vendored : List String := ["vendor/util.h", "util.h"]

theorem loose_of_strict_vendored :
    resolvePath "util.h" "" vendored [] true = some "util.h" ∧
      ∃ found, resolvePath "util.h" "" vendored [] false = some found ∧
        (found = "util.h" ∨ ∃ form, EndsInForm form found ∧ ¬ IsJoined "" form found) := by
  have hstrict : resolvePath "util.h" "" vendored [] true = some "util.h" := by decide +kernel
  obtain ⟨found, hfound, hsame | ⟨-, -, form, -, -, -, -, hends, hexact⟩⟩ := loose_of_strict hstrict
  · exact ⟨hstrict, found, hfound, .inl hsame⟩
  · exact ⟨hstrict, found, hfound, .inr ⟨form, hends, hexact⟩⟩

/-- Loose matching finds the file that is listed first, which is not the exact one. -/
theorem loose_ne_strict_vendored :
    resolvePath "util.h" "" vendored [] true = some "util.h" ∧
      resolvePath "util.h" "" vendored [] false = some "vendor/util.h" ∧
      resolvePath "util.h" "" vendored [] false ≠ resolvePath "util.h" "" vendored [] true := by
  have hstrict : resolvePath "util.h" "" vendored [] true = some "util.h" := by decide +kernel
  have hloose : resolvePath "util.h" "" vendored [] false = some "vendor/util.h" := by
    decide +kernel
  refine ⟨hstrict, hloose, ?_⟩
  rw [hstrict, hloose]
  decide

end DepGraph
