/-
  DepGraph — normal forms of paths.

  The segments that are kept so far form a stack, whose top is the last one.  No `.` or
  `..` is ever put on it, so a path whose segments were kept once keeps them again.  What
  follows a directory only sees the stack that the directory leaves; an empty stack is
  the root of the tree, and so is the empty directory.

  * `IsPlain`: a segment that stands for itself.
  * `forall_mem_foldl_keepSegment`: the invariant of the stack.
  * `keptSegments_append_left`: a path may be taken to its normal form in two steps.
  * `split_cancelDots`, `split_joinPath`: the segments of a normal form, and of a joined
    path.
  * `cancelDots_eq_self_iff`: the paths that are their own normal forms.
  * `cancelDots_normal_form`: there is no `.` or `..` in a normal form, it is its own
    normal form, and a directory may be taken to its normal form before joining.
-/
import DepGraph.Path.Normal
import DepGraph.Proofs.Text.Segments

namespace DepGraph

open DepGraph.Text

/-- A segment that stands for itself: it neither stays where it is nor climbs. -/
def IsPlain (s : String) : Prop := s ≠ "." ∧ s ≠ ".."

/-! ## The segments that are kept -/

section
variable {segments kept : List String}

/-- A segment that stands for itself is kept, `.` changes nothing, and `..` takes away
  the segment that was kept last. -/
theorem keepSegment_cases (kept : List String) (s : String) :
    (IsPlain s ∧ keepSegment kept s = s :: kept) ∨
      (s = "." ∧ keepSegment kept s = kept) ∨ (s = ".." ∧ keepSegment kept s = kept.drop 1) := by
  unfold keepSegment IsPlain
  split
  · next h => exact .inr (.inl ⟨h, rfl⟩)
  · next hdot =>
    split
    · next h => exact .inr (.inr ⟨h, rfl⟩)
    · next hdots => exact .inl ⟨⟨hdot, hdots⟩, rfl⟩

/-- What holds of the segments kept before, and of those that stand for themselves,
  holds of all that are kept. -/
theorem forall_mem_foldl_keepSegment {P : String → Prop} (hkept : ∀ s ∈ kept, P s)
    (hsegments : ∀ s ∈ segments, IsPlain s → P s) :
    ∀ s ∈ segments.foldl keepSegment kept, P s := by
  induction segments generalizing kept with
  | nil => exact hkept
  | cons first rest ih =>
    rw [List.forall_mem_cons] at hsegments
    refine ih ?_ hsegments.2
    rcases keepSegment_cases kept first with ⟨hplain, hstep⟩ | ⟨-, hstep⟩ | ⟨-, hstep⟩
    · rw [hstep]
      exact List.forall_mem_cons.2 ⟨hsegments.1 hplain, hkept⟩
    · rwa [hstep]
    · rw [hstep]
      exact fun s hs => hkept s (List.mem_of_mem_drop hs)

/-- Segments that stand for themselves are all kept. -/
theorem foldl_keepSegment (h : ∀ s ∈ segments, IsPlain s) :
    segments.foldl keepSegment kept = segments.reverse ++ kept := by
  induction segments generalizing kept with
  | nil => rfl
  | cons s rest ih =>
    rw [List.forall_mem_cons] at h
    rw [List.foldl_cons, keepSegment, if_neg h.1.1, if_neg h.1.2, ih h.2,
      List.reverse_cons, List.append_assoc, List.singleton_append]

end

section
variable {segments : List String} {s : String}

theorem isPlain_of_mem_keptSegments (h : s ∈ keptSegments segments) : IsPlain s := by
  have hs : s ∈ segments.foldl keepSegment [] := List.mem_reverse.1 h
  exact forall_mem_foldl_keepSegment (by simp) (fun _ _ hplain => hplain) s hs

/-- Only segments of the path are kept. -/
theorem keptSegments_subset : keptSegments segments ⊆ segments := by
  intro s h
  have hs : s ∈ segments.foldl keepSegment [] := List.mem_reverse.1 h
  exact forall_mem_foldl_keepSegment (by simp) (fun _ hmem _ => hmem) s hs

/-- More segments see only those that are kept of the segments before. -/
theorem keptSegments_append (segments more : List String) :
    keptSegments (segments ++ more) =
      (more.foldl keepSegment (keptSegments segments).reverse).reverse := by
  rw [keptSegments, keptSegments, List.foldl_append, List.reverse_reverse]

/-- What is kept once is kept again. -/
theorem keptSegments_keptSegments (segments : List String) :
    keptSegments (keptSegments segments) = keptSegments segments := by
  have hplain : ∀ s ∈ keptSegments segments, IsPlain s := fun _ => isPlain_of_mem_keptSegments
  rw [keptSegments, foldl_keepSegment hplain, List.append_nil, List.reverse_reverse]

/-- The segments at the front may be replaced by those of them that are kept. -/
theorem keptSegments_append_left (segments more : List String) :
    keptSegments (keptSegments segments ++ more) = keptSegments (segments ++ more) := by
  rw [keptSegments_append, keptSegments_keptSegments, ← keptSegments_append]

end

/-! ## Normal forms -/

theorem slash_not_mem_of_mem_split {path part : String} (h : part ∈ split "/" path) :
    '/' ∉ part.toList := separator_not_mem_of_mem_split slash_toList h

/-- The segments of a path that goes on after a slash. -/
theorem split_append_slash (directory path : String) :
    split "/" (directory ++ "/" ++ path) = split "/" directory ++ split "/" path := by
  have hsplit (s : String) : split "/" s ≠ [] := by simp [split, segments_ne_nil]
  have hslash : ∀ part ∈ split "/" directory ++ split "/" path, '/' ∉ part.toList := by
    intro part hpart
    exact (List.mem_append.1 hpart).elim slash_not_mem_of_mem_split slash_not_mem_of_mem_split
  calc split "/" (directory ++ "/" ++ path)
      = split "/" (join "/" (split "/" directory ++ split "/" path)) := by
        rw [join_append (hsplit directory) (hsplit path), join_split, join_split]
    _ = split "/" directory ++ split "/" path :=
        split_join slash_toList (List.append_ne_nil_of_left_ne_nil (hsplit directory) _) hslash

section
variable {directory path : String}

theorem split_joinPath (h : directory ≠ "") :
    split "/" (joinPath directory path) = split "/" directory ++ split "/" path := by
  rw [joinPath, if_neg h, split_append_slash]

/-- Where no segment is kept, the normal form is empty. -/
theorem cancelDots_of_kept_nil (h : keptSegments (split "/" path) = []) : cancelDots path = "" := by
  rw [cancelDots, h]
  rfl

/-- Else the segments of the normal form are those that are kept. -/
theorem split_cancelDots (h : keptSegments (split "/" path) ≠ []) :
    split "/" (cancelDots path) = keptSegments (split "/" path) :=
  split_join slash_toList h fun _ hs => slash_not_mem_of_mem_split (keptSegments_subset hs)

theorem isPlain_of_mem_split_cancelDots {s : String} (h : s ∈ split "/" (cancelDots path)) :
    IsPlain s := by
  by_cases hkept : keptSegments (split "/" path) = []
  · -- the only segment is the empty one
    rw [cancelDots_of_kept_nil hkept] at h
    obtain rfl : s = "" := List.mem_singleton.1 h
    unfold IsPlain
    decide
  · rw [split_cancelDots hkept] at h
    exact isPlain_of_mem_keptSegments h

/-- The paths that are normal forms are those without `.` and `..` segments. -/
theorem cancelDots_eq_self_iff : cancelDots path = path ↔ ∀ s ∈ split "/" path, IsPlain s := by
  constructor
  · intro h s hs
    rw [← h] at hs
    exact isPlain_of_mem_split_cancelDots hs
  · intro h
    rw [cancelDots, keptSegments, foldl_keepSegment h, List.append_nil, List.reverse_reverse,
      join_split]

/-- A directory without empty segments that keeps a segment is not the root of the tree. -/
theorem cancelDots_ne_empty (h : "" ∉ split "/" directory)
    (hkept : keptSegments (split "/" directory) ≠ []) : cancelDots directory ≠ "" := by
  intro hempty
  have hsplit := split_cancelDots hkept
  rw [hempty] at hsplit
  have hmem : "" ∈ keptSegments (split "/" directory) := hsplit ▸ List.mem_singleton.2 rfl
  exact h (keptSegments_subset hmem)

theorem cancelDots_joinPath (h : directory = "" ∨ "" ∉ split "/" directory) (path : String) :
    cancelDots (joinPath directory path) = cancelDots (joinPath (cancelDots directory) path) := by
  rcases h with rfl | h
  · rfl
  have hne : directory ≠ "" := by
    rintro rfl
    exact h (List.mem_singleton.2 rfl)
  by_cases hkept : keptSegments (split "/" directory) = []
  · -- nothing is kept of the directory, so the path is seen from the root
    rw [cancelDots_of_kept_nil hkept, cancelDots, split_joinPath hne, keptSegments_append, hkept]
    rfl
  · rw [cancelDots, cancelDots, split_joinPath hne, split_joinPath (cancelDots_ne_empty h hkept),
      split_cancelDots hkept, keptSegments_append_left]

end

/-- **Cancelling gives a normal form, and joining respects it.**  A path without `.` and
  `..` segments results, which is not changed by cancelling again; a path is changed iff it
  has such segments.  Seen from a directory that is empty or has no empty segment, a path
  has the same normal form as seen from the normal form of the directory. -/
theorem cancelDots_normal_form :
    (∀ path, (∀ s ∈ split "/" (cancelDots path), s ≠ "." ∧ s ≠ "..") ∧
      cancelDots (cancelDots path) = cancelDots path ∧
      (cancelDots path = path ↔ ∀ s ∈ split "/" path, s ≠ "." ∧ s ≠ "..")) ∧
    ∀ directory path, directory = "" ∨ "" ∉ split "/" directory →
      cancelDots (joinPath directory path) = cancelDots (joinPath (cancelDots directory) path) := by
  refine ⟨fun path => ?_, fun directory path h => cancelDots_joinPath h path⟩
  have hplain : ∀ s ∈ split "/" (cancelDots path), IsPlain s :=
    fun _ => isPlain_of_mem_split_cancelDots
  exact ⟨hplain, cancelDots_eq_self_iff.2 hplain, cancelDots_eq_self_iff⟩

/-- A directory that climbs above the root of the tree, where nothing of it is kept: its
  normal form is the root. -/
theorem cancelDots_normal_form_aboveRoot :
    "" ∉ split "/" "app/./../.." ∧ cancelDots "app/./../.." = "" ∧
      cancelDots (joinPath "app/./../.." "../lib//io") = "lib//io" := by
  have hsplit : "" ∉ split "/" "app/./../.." := by decide
  have hroot : cancelDots "app/./../.." = "" := by decide
  refine ⟨hsplit, hroot, ?_⟩
  rw [cancelDots_normal_form.2 _ "../lib//io" (.inr hsplit), hroot]
  decide

end DepGraph
