/-
  DepGraph — where a separator cuts a text.

  Reading from left to right, a separator first occurs after some part of a
  text; the next occurrence is looked for in what follows.  This is said without
  the segments, and the segments and leading parts are then described by it.

  * `decidableForallMem`: what holds of all characters of a text is decidable.
  * `CutsFirst`: the first occurrence of a separator.
  * `EndsBefore`: a part of a text ends before one of the occurrences.
  * `cut_induction`: induction on what follows the first occurrence.
  * `mem_leadingParts`: the leading parts are the text itself and the parts that
    end before an occurrence.
  * `leadingParts_of_eq_append`: the leading parts of a leading part are those up
    to it.
  * `join_split`, `split_join_take`: segments make the text again, and the first
    segments are those of what they make.
  * `segments_singleton`: a separator of one character cuts where the library
    splits a list; `split_join` is read off.
  * `toList_replaceAll`: what writing one character anew does to each character.
-/
import Mathlib.Data.List.Basic
import DepGraph.Text.Segments

namespace DepGraph.Text

/-! ## Characters -/

/-- What is said of the characters of a text is decided along the text; there are too many
  characters to try them all. -/
instance decidableForallMem {P : Char → Prop} [DecidablePred P] (s : List Char) :
    Decidable (∀ c ∈ s, P c) := List.decidableBAll P s

/-! ## Fixed beginnings and ends -/

theorem dropPrefix?_eq_some_iff {start s rest : String} :
    dropPrefix? start s = some rest ↔ s = start ++ rest := by
  simp only [dropPrefix?, Option.map_eq_some_iff, List.isPrefixOf?_eq_some_iff_append_eq]
  constructor
  · rintro ⟨l, hl, rfl⟩
    rw [← String.toList_inj, String.toList_append, String.toList_ofList, hl]
  · rintro rfl
    exact ⟨rest.toList, by rw [String.toList_append], String.ofList_toList⟩

theorem startsWith_iff {s start : String} :
    startsWith s start = true ↔ ∃ rest, s = start ++ rest := by
  rw [startsWith, ← List.isSome_isPrefixOf?_eq_isPrefixOf, Option.isSome_iff_exists]
  constructor
  · rintro ⟨l, hl⟩
    exact ⟨String.ofList l, dropPrefix?_eq_some_iff.1 (by rw [dropPrefix?, hl]; rfl)⟩
  · rintro ⟨rest, rfl⟩
    exact ⟨rest.toList, by rw [String.toList_append, List.isPrefixOf?_eq_some_iff_append_eq]⟩

theorem endsWith_iff {s tail : String} : endsWith s tail = true ↔ ∃ front, s = front ++ tail := by
  rw [endsWith, List.isSuffixOf_iff_suffix]
  constructor
  · rintro ⟨l, hl⟩
    refine ⟨String.ofList l, ?_⟩
    rw [← String.toList_inj, String.toList_append, String.toList_ofList, hl]
  · rintro ⟨front, rfl⟩
    exact ⟨front.toList, by rw [String.toList_append]⟩

/-! ## The first occurrence -/

/-- A separator first occurs in a text after `before`, and `after` follows. -/
structure CutsFirst (sep s before after : List Char) : Prop where
  ne_nil : sep ≠ []
  eq : s = before ++ sep ++ after
  first : ∀ before' after', s = before' ++ sep ++ after' → before.length ≤ before'.length

/-- A part of a text ends before an occurrence of a separator; the occurrences
  are found from left to right and do not overlap. -/
inductive EndsBefore (sep : List Char) : List Char → List Char → Prop
  | first {s before after : List Char} :
      CutsFirst sep s before after → EndsBefore sep s before
  | later {s before after part : List Char} :
      CutsFirst sep s before after → EndsBefore sep after part →
        EndsBefore sep s (before ++ sep ++ part)

section
variable {sep s before after part : List Char}

theorem CutsFirst.length_lt (h : CutsFirst sep s before after) : after.length < s.length := by
  have := List.length_pos_iff.2 h.ne_nil
  rw [h.eq, List.length_append, List.length_append]
  omega

/-- There is one first occurrence only. -/
theorem CutsFirst.unique {before' after' : List Char} (h : CutsFirst sep s before after)
    (h' : CutsFirst sep s before' after') : before = before' ∧ after = after' := by
  have hlen : before.length = before'.length :=
    Nat.le_antisymm (h.first _ _ h'.eq) (h'.first _ _ h.eq)
  have heq : before ++ (sep ++ after) = before' ++ (sep ++ after') := by
    rw [← List.append_assoc, ← List.append_assoc, ← h.eq, h'.eq]
  obtain ⟨hb, hrest⟩ := List.append_inj heq hlen
  exact ⟨hb, List.append_cancel_left hrest⟩

/-- Where there is an occurrence, there is a first one. -/
theorem exists_cutsFirst {front rest : List Char} (hne : sep ≠ []) (h : s = front ++ sep ++ rest) :
    ∃ before after, CutsFirst sep s before after := by
  by_cases hfirst : ∃ before after, s = before ++ sep ++ after ∧ before.length < front.length
  · obtain ⟨before, after, hs, hlt⟩ := hfirst
    exact exists_cutsFirst hne hs
  · refine ⟨front, rest, hne, h, fun before after hs => ?_⟩
    by_contra hlt
    exact hfirst ⟨before, after, hs, by omega⟩
  termination_by front.length

theorem cutsFirst_nil_iff : CutsFirst sep s [] after ↔ sep ≠ [] ∧ s = sep ++ after := by
  constructor
  · exact fun h => ⟨h.ne_nil, h.eq⟩
  · rintro ⟨hne, rfl⟩
    exact ⟨hne, rfl, fun _ _ _ => Nat.zero_le _⟩

/-- The first occurrence does not start at the first character iff it is the first
  one after it. -/
theorem cutsFirst_cons_iff {c : Char} (h : ¬ sep <+: c :: s) :
    CutsFirst sep (c :: s) (c :: before) after ↔ CutsFirst sep s before after := by
  constructor
  · rintro ⟨hne, heq, hfirst⟩
    refine ⟨hne, List.cons.inj heq |>.2, fun before' after' heq' => ?_⟩
    have := hfirst (c :: before') after' (by rw [heq', List.cons_append, List.cons_append])
    simpa using this
  · rintro ⟨hne, rfl, hfirst⟩
    refine ⟨hne, rfl, fun before' after' heq' => ?_⟩
    match before', heq' with
    | [], heq' => exact absurd ⟨after', heq'.symm⟩ h
    | _ :: before', heq' =>
      have := hfirst before' after' (List.cons.inj heq').2
      simpa using this

theorem CutsFirst.not_prefix {c : Char} (h : CutsFirst sep s (c :: before) after) :
    ¬ sep <+: s := by
  rintro ⟨rest, rfl⟩
  have := h.first [] rest rfl
  simp at this

/-! ## Segments -/

theorem segmentsFrom_skip (sep : List Char) (skip : Nat) (s : List Char) :
    segmentsFrom sep skip s = segmentsFrom sep 0 (s.drop skip) := by
  induction skip generalizing s with
  | zero => rfl
  | succ skip ih =>
    cases s with
    | nil => rfl
    | cons c rest => exact ih rest

theorem segmentsFrom_of_cutsFirst (h : CutsFirst sep s before after) :
    segmentsFrom sep 0 s = before :: segmentsFrom sep 0 after := by
  induction before generalizing s with
  | nil =>
    obtain ⟨hne, rfl⟩ := cutsFirst_nil_iff.1 h
    obtain ⟨c, rest, rfl⟩ := List.exists_cons_of_ne_nil hne
    have hp : (c :: rest).isPrefixOf (c :: (rest ++ after)) = true :=
      List.isPrefixOf_iff_prefix.2 (List.prefix_append (c :: rest) after)
    rw [List.cons_append, segmentsFrom, if_pos hp, segmentsFrom_skip]
    simp
  | cons c before ih =>
    have hp := h.not_prefix
    have hs := h.eq
    rw [List.cons_append, List.cons_append] at hs
    subst hs
    have hp' : ¬ sep.isPrefixOf (c :: (before ++ sep ++ after)) = true :=
      fun hpre => hp (List.isPrefixOf_iff_prefix.1 hpre)
    rw [segmentsFrom, if_neg hp', ih ((cutsFirst_cons_iff hp).1 h)]

theorem segmentsFrom_of_uncut (hne : sep ≠ [])
    (h : ∀ before after, ¬ CutsFirst sep s before after) : segmentsFrom sep 0 s = [s] := by
  induction s with
  | nil => rfl
  | cons c rest ih =>
    have hp : ¬ sep <+: c :: rest :=
      fun ⟨after, heq⟩ => h [] after (cutsFirst_nil_iff.2 ⟨hne, heq.symm⟩)
    have hp' : ¬ sep.isPrefixOf (c :: rest) = true :=
      fun hpre => hp (List.isPrefixOf_iff_prefix.1 hpre)
    have hrest := ih fun before after hcut => h _ _ ((cutsFirst_cons_iff hp).2 hcut)
    rw [segmentsFrom, if_neg hp', hrest]

theorem segments_of_cutsFirst (h : CutsFirst sep s before after) :
    segments sep s = before :: segments sep after := by
  have hne : ¬ sep.isEmpty = true := fun he => h.ne_nil (List.isEmpty_iff.1 he)
  rw [segments, segments, if_neg hne, if_neg hne, segmentsFrom_of_cutsFirst h]

theorem segments_of_uncut (h : ∀ before after, ¬ CutsFirst sep s before after) :
    segments sep s = [s] := by
  unfold segments
  split
  · rfl
  · next hne => exact segmentsFrom_of_uncut (fun he => hne (List.isEmpty_iff.2 he)) h

/-- Either a separator does not occur, or the text that follows its first
  occurrence is shorter. -/
theorem cut_induction {P : List Char → Prop} (sep : List Char)
    (uncut : ∀ s, (∀ before after, ¬ CutsFirst sep s before after) → P s)
    (cut : ∀ s before after, CutsFirst sep s before after → P after → P s) (s : List Char) :
    P s := by
  by_cases h : ∃ before after, CutsFirst sep s before after
  · obtain ⟨before, after, h⟩ := h
    exact cut s before after h (cut_induction sep uncut cut after)
  · exact uncut s fun before after hcut => h ⟨before, after, hcut⟩
  termination_by s.length
  decreasing_by exact h.length_lt

end

/-! ## Leading parts -/

/-- The parts of a text that end before an occurrence of a separator, shortest
  first, and then the text itself. -/
def leading (sep s : List Char) : List (List Char) :=
  (growing (segments sep s)).map sep.intercalate

theorem growing_map {α β : Type} (f : α → β) (l : List α) :
    growing (l.map f) = (growing l).map (List.map f) := by
  induction l with
  | nil => rfl
  | cons a rest ih => simp [growing, ih]

theorem ne_nil_of_mem_growing {α : Type} {l part : List α} (h : part ∈ growing l) : part ≠ [] := by
  cases l with
  | nil => simp [growing] at h
  | cons a rest =>
    rcases List.mem_cons.1 h with rfl | h
    · simp
    · obtain ⟨_, -, rfl⟩ := List.mem_map.1 h
      simp

theorem intercalate_cons_of_ne_nil {sep first : List Char} {rest : List (List Char)}
    (h : rest ≠ []) : sep.intercalate (first :: rest) = first ++ sep ++ sep.intercalate rest := by
  obtain ⟨second, rest, rfl⟩ := List.exists_cons_of_ne_nil h
  exact List.intercalate_cons_cons

theorem forall_mem_intercalate {α : Type} {P : α → Prop} {sep : List α} {parts : List (List α)}
    (hsep : ∀ c ∈ sep, P c) (h : ∀ p ∈ parts, ∀ c ∈ p, P c) :
    ∀ c ∈ sep.intercalate parts, P c := by
  induction parts with
  | nil => simp
  | cons p rest ih =>
    rw [List.forall_mem_cons] at h
    cases rest with
    | nil => simpa using h.1
    | cons q rest =>
      intro c hc
      rw [List.intercalate_cons_cons, List.mem_append, List.mem_append] at hc
      rcases hc with (hc | hc) | hc
      · exact h.1 c hc
      · exact hsep c hc
      · exact ih h.2 c hc

theorem mem_intercalate {α : Type} {sep p : List α} {parts : List (List α)} {c : α}
    (hp : p ∈ parts) (hc : c ∈ p) : c ∈ sep.intercalate parts := by
  induction parts with
  | nil => simp at hp
  | cons q rest ih =>
    cases rest with
    | nil =>
      obtain rfl := List.mem_singleton.1 hp
      rwa [List.intercalate_singleton]
    | cons r rest =>
      rw [List.intercalate_cons_cons, List.mem_append, List.mem_append]
      rcases List.mem_cons.1 hp with rfl | hp
      · exact .inl (.inl hc)
      · exact .inr (ih hp)

theorem intercalate_append {sep : List Char} {front parts : List (List Char)} (hfront : front ≠ [])
    (hparts : parts ≠ []) :
    sep.intercalate (front ++ parts) = sep.intercalate front ++ sep ++ sep.intercalate parts := by
  induction front with
  | nil => exact absurd rfl hfront
  | cons first front ih =>
    rw [List.cons_append, intercalate_cons_of_ne_nil (by simp [hparts])]
    cases front with
    | nil => rw [List.nil_append, List.intercalate_singleton]
    | cons second front =>
      rw [ih (by simp), intercalate_cons_of_ne_nil (List.cons_ne_nil second front)]
      simp only [List.append_assoc]

theorem join_map_ofList (sep : String) (l : List (List Char)) :
    join sep (l.map String.ofList) = String.ofList (sep.toList.intercalate l) := by
  rw [← String.toList_inj, join, String.toList_intercalate, String.toList_ofList, List.map_map]
  simp [Function.comp_def]

theorem leadingParts_eq (sep s : String) :
    leadingParts sep s = (leading sep.toList s.toList).map String.ofList := by
  rw [leadingParts, split, growing_map, leading, List.map_map, List.map_map]
  exact List.map_congr_left fun l _ => join_map_ofList sep l

section
variable {sep s before after part : List Char}

theorem leading_of_uncut (h : ∀ before after, ¬ CutsFirst sep s before after) :
    leading sep s = [s] := by
  simp [leading, segments_of_uncut h, growing]

theorem leading_of_cutsFirst (h : CutsFirst sep s before after) :
    leading sep s = before :: (leading sep after).map (before ++ sep ++ ·) := by
  rw [leading, segments_of_cutsFirst h, growing, List.map_cons, List.map_map, leading,
    List.map_map]
  congr 1
  · exact List.intercalate_singleton
  · exact List.map_congr_left fun l hl => intercalate_cons_of_ne_nil (ne_nil_of_mem_growing hl)

/-- The segments of a text make the text again. -/
theorem intercalate_segments (sep s : List Char) : sep.intercalate (segments sep s) = s := by
  induction s using cut_induction sep with
  | uncut s h => rw [segments_of_uncut h, List.intercalate_singleton]
  | cut s before after h ih =>
    rw [segments_of_cutsFirst h, intercalate_cons_of_ne_nil (segments_ne_nil sep after), ih, h.eq]

/-- What ends before an occurrence is shorter than the text. -/
theorem EndsBefore.length_lt (h : EndsBefore sep s part) : part.length < s.length := by
  induction h with
  | first h =>
    have := List.length_pos_iff.2 h.ne_nil
    simp only [h.eq, List.length_append]
    omega
  | later h _ ih =>
    simp only [h.eq, List.length_append]
    omega

theorem endsBefore_iff (h : CutsFirst sep s before after) :
    EndsBefore sep s part ↔
      part = before ∨ ∃ p, EndsBefore sep after p ∧ before ++ sep ++ p = part := by
  constructor
  · intro hpart
    cases hpart with
    | first h' => exact .inl (h'.unique h).1
    | later h' hp =>
      obtain ⟨rfl, rfl⟩ := h'.unique h
      exact .inr ⟨_, hp, rfl⟩
  · rintro (rfl | ⟨p, hp, rfl⟩)
    · exact .first h
    · exact .later h hp

theorem mem_leading : part ∈ leading sep s ↔ part = s ∨ EndsBefore sep s part := by
  induction s using cut_induction sep generalizing part with
  | uncut s h =>
    rw [leading_of_uncut h, List.mem_singleton]
    refine (or_iff_left ?_).symm
    rintro (h' | ⟨h', -⟩) <;> exact h _ _ h'
  | cut s before after h ih =>
    rw [leading_of_cutsFirst h, List.mem_cons, List.mem_map, endsBefore_iff h]
    constructor
    · rintro (rfl | ⟨p, hp, rfl⟩)
      · exact .inr (.inl rfl)
      · rcases ih.1 hp with rfl | hp
        · exact .inl h.eq.symm
        · exact .inr (.inr ⟨p, hp, rfl⟩)
    · rintro (rfl | rfl | ⟨p, hp, rfl⟩)
      · exact .inr ⟨after, ih.2 (.inl rfl), h.eq.symm⟩
      · exact .inl rfl
      · exact .inr ⟨p, ih.2 (.inr hp), rfl⟩

theorem prefix_of_mem_leading (h : part ∈ leading sep s) : part <+: s := by
  induction s using cut_induction sep generalizing part with
  | uncut s hs =>
    rw [leading_of_uncut hs, List.mem_singleton] at h
    exact h ▸ List.prefix_refl _
  | cut s before after hcut ih =>
    rw [leading_of_cutsFirst hcut, List.mem_cons, List.mem_map] at h
    rw [hcut.eq]
    rcases h with rfl | ⟨p, hp, rfl⟩
    · rw [List.append_assoc]
      exact List.prefix_append ..
    · exact (List.prefix_append_right_inj _).2 (ih hp)

/-- What is cut from a text keeps the first occurrence, if it reaches beyond it. -/
theorem CutsFirst.of_prefix (h : CutsFirst sep s before after) (hp : part <+: after) :
    CutsFirst sep (before ++ sep ++ part) before part := by
  refine ⟨h.ne_nil, rfl, fun before' after' heq => ?_⟩
  obtain ⟨rest, rfl⟩ := hp
  refine h.first before' (after' ++ rest) ?_
  rw [h.eq, ← List.append_assoc, heq, List.append_assoc]

/-- A separator does not occur in what stands before its first occurrence. -/
theorem CutsFirst.uncut (h : CutsFirst sep s before after) (before' after' : List Char) :
    ¬ CutsFirst sep before before' after' := by
  intro h'
  have hle := h.first before' (after' ++ sep ++ after) (by
    rw [h.eq, h'.eq]
    simp only [List.append_assoc])
  have hsep := List.length_pos_iff.2 h.ne_nil
  have hlen := congrArg List.length h'.eq
  simp only [List.length_append] at hlen
  omega

theorem take_mem_growing {α : Type} {l : List α} (h : l ≠ []) (n : Nat) :
    l.take (n + 1) ∈ growing l := by
  induction l generalizing n with
  | nil => exact absurd rfl h
  | cons a rest ih =>
    cases n with
    | zero => exact List.mem_cons_self
    | succ n =>
      cases rest with
      | nil => exact List.mem_cons_self
      | cons b rest =>
        exact List.mem_cons_of_mem _ (List.mem_map_of_mem (ih (List.cons_ne_nil b rest) n))

/-- What the first segments make is a leading part. -/
theorem intercalate_take_mem_leading (sep s : List Char) (n : Nat) :
    sep.intercalate ((segments sep s).take (n + 1)) ∈ leading sep s :=
  List.mem_map_of_mem (take_mem_growing (segments_ne_nil sep s) n)

/-- The first segments are the segments of what they make. -/
theorem segments_intercalate_take (sep s : List Char) (n : Nat) :
    segments sep (sep.intercalate ((segments sep s).take (n + 1))) =
      (segments sep s).take (n + 1) := by
  induction s using cut_induction sep generalizing n with
  | uncut s h =>
    rw [segments_of_uncut h, List.take_succ_cons, List.take_nil, List.intercalate_singleton,
      segments_of_uncut h]
  | cut s before after h ih =>
    rw [segments_of_cutsFirst h, List.take_succ_cons]
    cases n with
    | zero => rw [List.take_zero, List.intercalate_singleton, segments_of_uncut h.uncut]
    | succ n =>
      have hne : (segments sep after).take (n + 1) ≠ [] :=
        ne_nil_of_mem_growing (take_mem_growing (segments_ne_nil sep after) n)
      have hpart := prefix_of_mem_leading (intercalate_take_mem_leading sep after n)
      rw [intercalate_cons_of_ne_nil hne, segments_of_cutsFirst (h.of_prefix hpart), ih]

theorem leading_of_eq_append {parts more : List (List Char)}
    (h : leading sep s = parts ++ part :: more) : leading sep part = parts ++ [part] := by
  induction s using cut_induction sep generalizing part parts more with
  | uncut s hs =>
    rw [leading_of_uncut hs] at h
    cases parts with
    | nil =>
      obtain ⟨rfl, -⟩ := List.cons.inj h
      exact leading_of_uncut hs
    | cons p parts => simp at h
  | cut s before after hcut ih =>
    rw [leading_of_cutsFirst hcut] at h
    cases parts with
    | nil =>
      obtain ⟨rfl, -⟩ := List.cons.inj h
      exact leading_of_uncut hcut.uncut
    | cons p parts =>
      obtain ⟨rfl, hrest⟩ := List.cons.inj h
      obtain ⟨l, l', hl, rfl, hl'⟩ := List.map_eq_append_iff.1 hrest
      obtain ⟨q, more', rfl, rfl, rfl⟩ := List.map_eq_cons_iff.1 hl'
      have hq : q <+: after := prefix_of_mem_leading (by rw [hl]; simp)
      rw [leading_of_cutsFirst (hcut.of_prefix hq), ih hl]
      simp

theorem pairwise_leading (sep s : List Char) :
    (leading sep s).Pairwise fun p q => p.length < q.length := by
  induction s using cut_induction sep with
  | uncut s h => simp [leading_of_uncut h]
  | cut s before after h ih =>
    have hsep := List.length_pos_iff.2 h.ne_nil
    rw [leading_of_cutsFirst h, List.pairwise_cons, List.pairwise_map]
    refine ⟨fun q hq => ?_, ih.imp fun hlt => ?_⟩
    · obtain ⟨p, -, rfl⟩ := List.mem_map.1 hq
      simp only [List.length_append]
      omega
    · simp only [List.length_append]
      omega

end

section
variable {sep s part : String}

/-- **The leading parts of a name** are the name and what ends before an
  occurrence of the separator. -/
theorem mem_leadingParts :
    part ∈ leadingParts sep s ↔ part = s ∨ EndsBefore sep.toList s.toList part.toList := by
  rw [leadingParts_eq, List.mem_map, ← String.toList_inj, ← mem_leading]
  constructor
  · rintro ⟨l, hl, rfl⟩
    rwa [String.toList_ofList]
  · exact fun h => ⟨_, h, String.ofList_toList⟩

theorem self_mem_leadingParts (sep s : String) : s ∈ leadingParts sep s :=
  mem_leadingParts.2 (.inl rfl)

/-- A name starts with each of its leading parts. -/
theorem exists_append_of_mem_leadingParts (h : part ∈ leadingParts sep s) :
    ∃ rest, s = part ++ rest := by
  rw [leadingParts_eq] at h
  obtain ⟨l, hl, rfl⟩ := List.mem_map.1 h
  obtain ⟨rest, hrest⟩ := prefix_of_mem_leading hl
  refine ⟨String.ofList rest, ?_⟩
  rw [← String.toList_inj, String.toList_append, String.toList_ofList, String.toList_ofList, hrest]

/-- The leading parts of a leading part are those up to it. -/
theorem leadingParts_of_eq_append {parts more : List String}
    (h : leadingParts sep s = parts ++ part :: more) :
    leadingParts sep part = parts ++ [part] := by
  rw [leadingParts_eq] at h ⊢
  obtain ⟨l, l', hl, rfl, hl'⟩ := List.map_eq_append_iff.1 h
  obtain ⟨p, more', rfl, rfl, rfl⟩ := List.map_eq_cons_iff.1 hl'
  rw [String.toList_ofList, leading_of_eq_append hl]
  simp

/-- The leading parts of a leading part are leading parts. -/
theorem leadingParts_subset (h : part ∈ leadingParts sep s) :
    leadingParts sep part ⊆ leadingParts sep s := by
  obtain ⟨parts, more, hparts⟩ := List.append_of_mem h
  rw [leadingParts_of_eq_append hparts, hparts]
  simp

/-- Leading parts become longer. -/
theorem pairwise_leadingParts (sep s : String) :
    (leadingParts sep s).Pairwise fun p q => p.length < q.length := by
  rw [leadingParts_eq, List.pairwise_map]
  refine (pairwise_leading _ _).imp fun h => ?_
  simpa only [String.length_ofList] using h

/-- The segments of a text make the text again. -/
theorem join_split (sep s : String) : join sep (split sep s) = s := by
  rw [split, join_map_ofList, intercalate_segments, String.ofList_toList]

theorem join_cons {parts : List String} (h : parts ≠ []) :
    join sep (s :: parts) = s ++ sep ++ join sep parts := by
  obtain ⟨t, rest, rfl⟩ := List.exists_cons_of_ne_nil h
  exact String.intercalate_cons_cons

theorem join_append {front parts : List String} (hfront : front ≠ []) (hparts : parts ≠ []) :
    join sep (front ++ parts) = join sep front ++ sep ++ join sep parts := by
  rw [← String.toList_inj, String.toList_append, String.toList_append, join, join, join,
    String.toList_intercalate, String.toList_intercalate, String.toList_intercalate,
    List.map_append, intercalate_append (by simpa using hfront) (by simpa using hparts)]

/-- What the first segments make is a leading part. -/
theorem join_take_mem_leadingParts (sep s : String) {n : Nat} (hn : n ≠ 0) :
    join sep ((split sep s).take n) ∈ leadingParts sep s := by
  obtain ⟨n, rfl⟩ := Nat.exists_eq_succ_of_ne_zero hn
  rw [leadingParts_eq, split, ← List.map_take, join_map_ofList]
  exact List.mem_map_of_mem (intercalate_take_mem_leading sep.toList s.toList n)

/-- The first segments are the segments of what they make. -/
theorem split_join_take (sep s : String) {n : Nat} (hn : n ≠ 0) :
    split sep (join sep ((split sep s).take n)) = (split sep s).take n := by
  obtain ⟨n, rfl⟩ := Nat.exists_eq_succ_of_ne_zero hn
  rw [split, split, ← List.map_take, join_map_ofList, String.toList_ofList,
    segments_intercalate_take]

end

/-! ## Separators of one character -/

theorem slash_toList : "/".toList = ['/'] := by decide

/-- A separator of one character cuts where the library splits a list. -/
theorem segments_singleton (c : Char) (s : List Char) : segments [c] s = s.splitOn c := by
  have key : segmentsFrom [c] 0 s = s.splitOn c := by
    induction s with
    | nil => simp [segmentsFrom]
    | cons d rest ih =>
      rw [segmentsFrom, List.splitOn_cons_eq_if_modifyHead]
      by_cases hd : d = c
      · simp [hd, ih]
      · have hp : [c].isPrefixOf (d :: rest) = false := by simp [List.isPrefixOf, Ne.symm hd]
        obtain ⟨first, more, h⟩ := List.exists_cons_of_ne_nil (List.splitOn_ne_nil c rest)
        simp [hp, ih, h, hd]
  simpa [segments] using key

theorem not_mem_of_mem_splitOn {c : Char} {s part : List Char} (h : part ∈ s.splitOn c) :
    c ∉ part := by
  induction s generalizing part with
  | nil =>
    rw [List.splitOn_nil, List.mem_singleton] at h
    rw [h]
    exact List.not_mem_nil
  | cons d rest ih =>
    rw [List.splitOn_cons_eq_if_modifyHead] at h
    by_cases hd : d = c
    · rcases List.mem_cons.1 (by simpa [hd] using h) with rfl | hrest
      · exact List.not_mem_nil
      · exact ih hrest
    · obtain ⟨first, more, hsplit⟩ := List.exists_cons_of_ne_nil (List.splitOn_ne_nil c rest)
      rw [hsplit, List.forall_mem_cons] at ih
      rcases List.mem_cons.1 (by simpa [hd, hsplit] using h) with rfl | hmore
      · simp [Ne.symm hd, ih.1]
      · exact ih.2 _ hmore

section
variable {sep : String} {c : Char} (hsep : sep.toList = [c])
include hsep

/-- The separator does not occur in a segment. -/
theorem separator_not_mem_of_mem_split {s part : String} (hpart : part ∈ split sep s) :
    c ∉ part.toList := by
  rw [split, hsep, segments_singleton] at hpart
  obtain ⟨l, hl, rfl⟩ := List.mem_map.1 hpart
  rw [String.toList_ofList]
  exact not_mem_of_mem_splitOn hl

/-- Parts that do not hold the separator are the segments of what they make. -/
theorem split_join {parts : List String} (hne : parts ≠ []) (h : ∀ p ∈ parts, c ∉ p.toList) :
    split sep (join sep parts) = parts := by
  rw [split, join, String.toList_intercalate, hsep, segments_singleton,
    List.splitOn_intercalate c (by simpa using h) (by simpa using hne), List.map_map]
  simp [Function.comp_def]

/-- Another character does not occur in joined parts iff it occurs in none. -/
theorem not_mem_join_iff {x : Char} (hx : x ≠ c) {parts : List String} :
    x ∉ (join sep parts).toList ↔ ∀ p ∈ parts, x ∉ p.toList := by
  induction parts with
  | nil => simp [join, String.intercalate_nil]
  | cons first rest ih =>
    cases rest with
    | nil => simp [join, String.intercalate_singleton]
    | cons second rest =>
      rw [join, String.intercalate_cons_cons, ← join, String.toList_append, String.toList_append,
        hsep, List.mem_append, List.mem_append, List.mem_singleton, List.forall_mem_cons, ← ih]
      simp [hx]

theorem not_mem_of_mem_split {x : Char} (hx : x ≠ c) {s part : String} (hs : x ∉ s.toList)
    (hpart : part ∈ split sep s) : x ∉ part.toList := by
  rw [← join_split sep s, not_mem_join_iff hsep hx] at hs
  exact hs part hpart

end

/-! ## Characters written anew -/

/-- Where a text of one character is written anew, every such character is. -/
theorem toList_replaceAll {old : String} {c : Char} (hold : old.toList = [c]) (new s : String) :
    (replaceAll old new s).toList =
      s.toList.flatMap fun x => if x = c then new.toList else [x] := by
  rw [replaceAll, split, hold, segments_singleton, join_map_ofList, String.toList_ofList]
  induction s.toList with
  | nil => simp [List.splitOn_nil, List.intercalate_singleton]
  | cons x rest ih =>
    obtain ⟨first, more, hsplit⟩ := List.exists_cons_of_ne_nil (List.splitOn_ne_nil c rest)
    rw [List.splitOn_cons_eq_if_modifyHead, List.flatMap_cons, ← ih, hsplit]
    by_cases hx : x = c
    · simp [hx, List.intercalate_cons_cons]
    · simp [hx]

end DepGraph.Text
