/-
  DepGraph — what comes of a reference.

  A reference means the first file that it matches.  Only if it matches none is its
  other name looked up, and then the first file that this name matches counts.

  * `FindsFirst`, `Unmatched`, `OtherName`: the three facts on which it depends.
  * `Outcome`: what comes of a reference, by cases.
  * `outcome_lookup`, `Outcome.lookup_eq`: a lookup gives this, and nothing else.
  * `lookup_outcome`: so it does; other names do not count for a reference that matches
    a file, and what a lookup does not find is tagged.
-/
import DepGraph.Proofs.Path.Matches

namespace DepGraph.Resolver

section
variable (r : Resolver) (raw directory : String)

/-- A file is the first one that a reference matches. -/
def FindsFirst (file : String) : Prop :=
  ∃ place, FirstMatch r.strict directory (writtenForms raw r.suffixes) r.files place file

/-- A reference matches no file. -/
def Unmatched : Prop :=
  ∀ place file, ¬ MatchAt r.strict directory (writtenForms raw r.suffixes) r.files place file

/-- The normal form of a reference has another name, which is not the reference as it
  is written. -/
def OtherName (name : String) : Prop :=
  ∃ rename, r.rename = some rename ∧ rename (cancelDots raw) = some name ∧ name ≠ raw

/-- What comes of a reference. -/
inductive Outcome : Option String → Prop
  | itself {file} : r.FindsFirst raw directory file → Outcome (some file)
  | renamed {name file} : r.Unmatched raw directory → r.OtherName raw name →
      r.FindsFirst name directory file → Outcome (some file)
  | unmatched {name} : r.Unmatched raw directory → r.OtherName raw name →
      r.Unmatched name directory → Outcome none
  | nameless : r.Unmatched raw directory → (∀ name, ¬ r.OtherName raw name) → Outcome none

end

section
variable {r : Resolver} {raw directory name file : String}

theorem find_eq_some_iff : r.find raw directory = some file ↔ r.FindsFirst raw directory file :=
  resolvePath_eq_some_iff

theorem find_eq_none_iff : r.find raw directory = none ↔ r.Unmatched raw directory :=
  resolvePath_eq_none_iff

theorem renamed?_eq_some_iff : r.renamed? raw = some name ↔ r.OtherName raw name := by
  rw [renamed?, Option.filter_eq_some_iff, Option.bind_eq_some_iff, bne_iff_ne, OtherName]
  constructor
  · rintro ⟨⟨rename, hrename, hname⟩, hne⟩
    exact ⟨rename, hrename, hname, hne⟩
  · rintro ⟨rename, hrename, hname, hne⟩
    exact ⟨⟨rename, hrename, hname⟩, hne⟩

theorem renamed?_eq_none_iff : r.renamed? raw = none ↔ ∀ name, ¬ r.OtherName raw name := by
  simp only [Option.eq_none_iff_forall_ne_some, ne_eq, renamed?_eq_some_iff]

theorem lookup_of_find (h : r.find raw directory = some file) :
    r.lookup raw directory = some file := by
  rw [lookup, h]

theorem lookup_of_find_none (h : r.find raw directory = none) :
    r.lookup raw directory = (r.renamed? raw).bind fun name => r.find name directory := by
  rw [lookup, h]

theorem outcome_lookup (r : Resolver) (raw directory : String) :
    r.Outcome raw directory (r.lookup raw directory) := by
  cases hfind : r.find raw directory with
  | some file =>
    rw [lookup_of_find hfind]
    exact .itself (find_eq_some_iff.1 hfind)
  | none =>
    have hunmatched := find_eq_none_iff.1 hfind
    rw [lookup_of_find_none hfind]
    cases hname : r.renamed? raw with
    | none => exact .nameless hunmatched (renamed?_eq_none_iff.1 hname)
    | some name =>
      have hother := renamed?_eq_some_iff.1 hname
      rw [Option.bind_some]
      cases hfound : r.find name directory with
      | some file => exact .renamed hunmatched hother (find_eq_some_iff.1 hfound)
      | none => exact .unmatched hunmatched hother (find_eq_none_iff.1 hfound)

theorem Outcome.lookup_eq {found : Option String} (h : r.Outcome raw directory found) :
    r.lookup raw directory = found := by
  cases h with
  | itself hfirst => exact lookup_of_find (find_eq_some_iff.2 hfirst)
  | renamed hunmatched hname hfirst =>
    rw [lookup_of_find_none (find_eq_none_iff.2 hunmatched), renamed?_eq_some_iff.2 hname,
      Option.bind_some, find_eq_some_iff.2 hfirst]
  | unmatched hunmatched hname hnone =>
    rw [lookup_of_find_none (find_eq_none_iff.2 hunmatched), renamed?_eq_some_iff.2 hname,
      Option.bind_some, find_eq_none_iff.2 hnone]
  | nameless hunmatched hname =>
    rw [lookup_of_find_none (find_eq_none_iff.2 hunmatched), renamed?_eq_none_iff.2 hname,
      Option.bind_none]

end

/-- **What comes of a reference**: a lookup gives the first file that the reference
  matches, else the first file that its other name matches, else nothing.  If the
  reference matches a file, the lookup gives it whatever other names there are.  The
  file is what the reference resolves to; one without a file is tagged as external. -/
theorem lookup_outcome (r : Resolver) (raw directory : String) :
    (∀ found, r.lookup raw directory = found ↔ r.Outcome raw directory found) ∧
    (∀ file, r.FindsFirst raw directory file → ∀ rename,
      ({ r with rename } : Resolver).lookup raw directory = some file) ∧
    ((∃ file, r.lookup raw directory = some file ∧ r.resolve raw directory = file) ∨
      r.lookup raw directory = none ∧ r.resolve raw directory = externalTag ++ raw) := by
  refine ⟨fun found => ?_, fun file hfirst rename => ?_, ?_⟩
  · constructor
    · rintro rfl
      exact outcome_lookup r raw directory
    · exact Outcome.lookup_eq
  · -- the first match does not depend on other names
    exact lookup_of_find (find_eq_some_iff.2 hfirst)
  · unfold resolve
    cases r.lookup raw directory with
    | some file => exact .inl ⟨file, rfl, rfl⟩
    | none => exact .inr ⟨rfl, rfl⟩

end DepGraph.Resolver
