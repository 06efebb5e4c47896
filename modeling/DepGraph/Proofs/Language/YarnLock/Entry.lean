/-
  DepGraph — the entries of yarn's lock file.

  What a paragraph says is told by its lines.  The requirements of an entry are found in
  its block; they count for every package of its first line.  A text is read paragraph by
  paragraph, though it is cut at two line feeds and not at empty lines.

  * `requirements_lines`: the requirements that are looked for are those of the block.
  * `entryOf_lines_iff`: when an entry is read as it was meant.
  * `entryOf_part_iff`: the same of every paragraph.
  * `flatMap_yarnEntry`: a text is read paragraph by paragraph.
-/
import DepGraph.Proofs.Language.YarnLock.Header
import DepGraph.Proofs.Language.YarnLock.Requirement

namespace DepGraph

open DepGraph.Text

/-! ## Entries -/

/-- Where the requirements of a block end, no more of them are looked for. -/
theorem LockBlock.takeWhile_later (b : LockBlock) :
    (solidLines b.later).takeWhile (·.getLast? != some ':') = [] := by
  cases hls : b.later with
  | nil => rfl
  | cons l more =>
    have hlast := b.later_heading l (by simp [hls])
    have hne : trim l ≠ [] := by
      intro hempty
      simp [hempty] at hlast
    rw [solidLines_cons hne, List.takeWhile_cons_of_neg (by simp [hlast])]

/-- The requirements of an entry are looked for in its block. -/
theorem requirements_lines (e : LockEntry) :
    requirements (solidLines e.lines) =
      (solidLines (e.required.map Requirement.line)).map requirement := by
  have hskip : ∀ l ∈ solidLines (listing e.specs :: e.fields),
      (!blockHeading.isPrefixOf l) = true := by
    refine forall_mem_solidLines ?_
    simp only [Bool.not_eq_true', Bool.eq_false_iff, ne_eq, List.isPrefixOf_iff_prefix]
    exact List.forall_mem_cons.2 ⟨not_heading_listing e.specs_ne_nil, e.fields_plain⟩
  have hplain : ∀ l ∈ solidLines (e.required.map Requirement.line),
      (l.getLast? != some ':') = true := by
    refine forall_mem_solidLines fun l hl => ?_
    obtain ⟨r, -, rfl⟩ := List.mem_map.1 hl
    simpa using r.getLast?_trim_line
  have hread (ls : List (List Char)) : requirements ls =
      (((ls.dropWhile (!blockHeading.isPrefixOf ·)).drop 1).takeWhile
        (·.getLast? != some ':')).map requirement := rfl
  rw [LockEntry.required] at hplain
  rw [hread, LockEntry.lines, LockEntry.required, ← List.cons_append, solidLines_append,
    List.dropWhile_append_of_pos hskip]
  cases hblock : e.block with
  | none => rfl
  | some b =>
    have hheading : trim blockHeading = blockHeading := by decide
    rw [hblock, Option.map_some, Option.getD_some] at hplain
    rw [solidLines_cons (by rw [hheading]; decide), hheading,
      List.dropWhile_cons_of_neg (by decide), List.drop_one, List.tail_cons, solidLines_append,
      List.takeWhile_append_of_pos hplain, b.takeWhile_later, List.append_nil]
    rfl

/-- What an entry says, by its lines. -/
def entryOf (ls : List (List Char)) : List (String × List String) :=
  match ls with
  | [] => []
  | header :: rest =>
    if header.head? == some '#' then []
    else
      let required := (requirements (header :: rest)).map String.ofList
      (headerPackages header).map fun p => (String.ofList p, required)

theorem yarnEntry_eq (text : List Char) : yarnEntry text = entryOf (solidLines (Text.lines text)) :=
  rfl

theorem solidLines_lines (e : LockEntry) :
    ∃ more, solidLines e.lines = trim (listing e.specs) :: more := by
  rw [LockEntry.lines]
  refine ⟨_, solidLines_cons ?_ _⟩
  rw [trim_listing]
  simp

theorem map_ofList_inj {l l' : List (List Char)} :
    l.map String.ofList = l'.map String.ofList ↔ l = l' := by
  refine ⟨fun h => ?_, congrArg _⟩
  have hback := congrArg (List.map String.toList) h
  simpa [Function.comp_def] using hback

/-- An entry is read as it was meant iff it is readable; in any case no more packages are
  read than are listed. -/
theorem entryOf_lines_iff (e : LockEntry) :
    (entryOf (solidLines e.lines)).length ≤ e.pairs.length ∧
      (entryOf (solidLines e.lines) = e.pairs ↔ e.IsReadable) := by
  obtain ⟨hle, hspecs⟩ := headerPackages_listing_iff e.specs_ne_nil
  have hreq := requirements_read_iff e.required
  obtain ⟨more, hmore⟩ := solidLines_lines e
  have hlines := requirements_lines e
  have hpairs : e.pairs ≠ [] := by simpa [LockEntry.pairs] using e.specs_ne_nil
  rw [hmore] at hlines ⊢
  rw [← headerPackages_trim_listing] at hle hspecs
  rw [entryOf, hlines, LockEntry.IsReadable]
  by_cases hcomment : (trim (listing e.specs)).head? = some '#'
  · rw [if_pos (by simpa using hcomment)]
    refine ⟨Nat.zero_le _, iff_of_false hpairs.symm fun hread => ?_⟩
    rw [trim_listing_of_readable e.specs_ne_nil hread.1] at hcomment
    exact hread.2.1 hcomment
  · rw [if_neg (by simpa using hcomment)]
    refine ⟨by simpa [LockEntry.pairs] using hle, ?_⟩
    constructor
    · intro heq
      have hkeys : headerPackages (trim (listing e.specs)) = e.specs.map (·.text) := by
        have hfst := congrArg (List.map Prod.fst) heq
        rw [← map_ofList_inj]
        simpa [LockEntry.pairs, Function.comp_def] using hfst
      have hs := hspecs.1 hkeys
      rw [trim_listing_of_readable e.specs_ne_nil hs] at hcomment
      refine ⟨hs, hcomment, hreq.1 ?_⟩
      rw [hkeys, LockEntry.pairs, List.map_map, List.map_inj_left] at heq
      obtain ⟨s, hmem⟩ := List.exists_mem_of_ne_nil _ e.specs_ne_nil
      have hsnd := (Prod.mk.inj (heq s hmem)).2
      rw [← map_ofList_inj]
      simpa [Function.comp_def] using hsnd
    · rintro ⟨hs, -, hr⟩
      rw [hspecs.2 hs, hreq.2 hr, LockEntry.pairs, List.map_map, List.map_map]
      rfl

/-- The same of every paragraph. -/
theorem entryOf_part_iff (part : LockPart) :
    (entryOf (solidLines part.lines)).length ≤ part.pairs.length ∧
      (entryOf (solidLines part.lines) = part.pairs ↔ part.IsReadable) := by
  cases part with
  | comment first more =>
    have htrim : trim ('#' :: first) = '#' :: trimRight first := trim_append [] (by decide)
    have hempty : entryOf (solidLines (LockPart.comment first more).lines) = [] := by
      rw [LockPart.lines, solidLines_cons (by simp [htrim]), htrim]
      rfl
    rw [hempty]
    exact ⟨Nat.zero_le _, iff_of_true rfl trivial⟩
  | entry e => exact entryOf_lines_iff e

/-! ## Paragraphs -/

theorem paragraphsOf_append (ls ls' : List (List Char)) :
    paragraphsOf (ls ++ [] :: ls') = paragraphsOf ls ++ paragraphsOf ls' := by
  rw [paragraphsOf, List.splitOnP_append_cons ls ls' rfl, List.filter_append]
  rfl

theorem paragraphsOf_of_solid {ls : List (List Char)} (h : ∀ l ∈ ls, l ≠ []) (hne : ls ≠ []) :
    paragraphsOf ls = [ls] := by
  rw [paragraphsOf, List.splitOnP_eq_singleton fun l hl => by simpa using h l hl]
  simp [hne]

@[simp] theorem paragraphsOf_cons_nil (ls : List (List Char)) :
    paragraphsOf ([] :: ls) = paragraphsOf ls := paragraphsOf_append [] ls

@[simp] theorem paragraphsOf_concat_nil (ls : List (List Char)) :
    paragraphsOf (ls ++ [[]]) = paragraphsOf ls := by
  rw [paragraphsOf_append]
  exact List.append_nil _

@[simp] theorem solidLines_cons_nil (ls : List (List Char)) :
    solidLines ([] :: ls) = solidLines ls := rfl

@[simp] theorem solidLines_concat_nil (ls : List (List Char)) :
    solidLines (ls ++ [[]]) = solidLines ls := by
  rw [solidLines_append]
  exact List.append_nil _

theorem flatMap_entryOf_solid {ls : List (List Char)} (h : [] ∉ ls) :
    (paragraphsOf ls).flatMap (fun p => entryOf (solidLines p)) = entryOf (solidLines ls) := by
  cases ls with
  | nil => rfl
  | cons l ls =>
    rw [paragraphsOf_of_solid (fun l' hl' heq => h (heq ▸ hl')) (List.cons_ne_nil l ls),
      List.flatMap_singleton]

/-- Where empty lines stand at the ends only, there is one paragraph at most. -/
theorem flatMap_entryOf_single {ls : List (List Char)}
    (h : ∀ x y, ls = x ++ [] :: y → x = [] ∨ y = []) :
    (paragraphsOf ls).flatMap (fun p => entryOf (solidLines p)) = entryOf (solidLines ls) := by
  by_cases hls : [] ∈ ls
  · obtain ⟨x, y, rfl, hx⟩ := List.eq_append_cons_of_mem hls
    rcases h x y rfl with rfl | rfl
    · -- the first line is empty, and then only the last one may be
      rw [List.nil_append, paragraphsOf_cons_nil, solidLines_cons_nil]
      by_cases hy : [] ∈ y
      · obtain ⟨z, w, rfl, hz⟩ := List.eq_append_cons_of_mem hy
        obtain rfl : w = [] := (h ([] :: z) w rfl).resolve_left (List.cons_ne_nil _ _)
        rw [paragraphsOf_concat_nil, solidLines_concat_nil]
        exact flatMap_entryOf_solid hz
      · exact flatMap_entryOf_solid hy
    · rw [paragraphsOf_concat_nil, solidLines_concat_nil]
      exact flatMap_entryOf_solid hx
  · exact flatMap_entryOf_solid hls

/-- Two line feeds in a row make an empty line within a text. -/
theorem eq_nil_of_uncut {text : List Char}
    (huncut : ∀ before after, ¬ CutsFirst ['\n', '\n'] text before after)
    {x y : List (List Char)} (h : text.splitOn '\n' = x ++ [] :: y) : x = [] ∨ y = [] := by
  by_contra hne
  rw [not_or] at hne
  have htext : ['\n'].intercalate (text.splitOn '\n') = text := List.intercalate_splitOn '\n'
  rw [h, intercalate_append hne.1 (by simp), intercalate_cons_of_ne_nil hne.2] at htext
  have hoccurs : text = ['\n'].intercalate x ++ ['\n', '\n'] ++ ['\n'].intercalate y := by
    rw [← htext]
    simp
  obtain ⟨before, after, hcut⟩ := exists_cutsFirst (List.cons_ne_nil '\n' ['\n']) hoccurs
  exact huncut before after hcut

theorem splitOn_cut (before after : List Char) :
    (before ++ ['\n', '\n'] ++ after).splitOn '\n' =
      before.splitOn '\n' ++ [] :: after.splitOn '\n' := by
  rw [List.append_assoc, List.cons_append, List.cons_append, List.nil_append,
    List.splitOn_append_cons_self, ← List.nil_append ('\n' :: after),
    List.splitOn_append_cons_self]
  rfl

section
variable {text : List Char} (hfeeds : ∀ c ∈ text, isLineBoundary c = true → c = '\n')
include hfeeds

theorem yarnEntry_of_uncut (h : ∀ before after, ¬ CutsFirst ['\n', '\n'] text before after) :
    yarnEntry text =
      (paragraphsOf (text.splitOn '\n')).flatMap fun p => entryOf (solidLines p) := by
  have hlines : solidLines (Text.lines text) = solidLines (text.splitOn '\n') := by
    rcases lines_of_newlines hfeeds with heq | heq
    · rw [heq]
    · rw [heq, solidLines_concat_nil]
  rw [yarnEntry_eq, hlines, flatMap_entryOf_single fun x y => eq_nil_of_uncut h]

/-- **A text is read paragraph by paragraph.** -/
theorem flatMap_yarnEntry : (segments ['\n', '\n'] text).flatMap yarnEntry =
    (paragraphsOf (text.splitOn '\n')).flatMap fun p => entryOf (solidLines p) := by
  induction text using cut_induction ['\n', '\n'] with
  | uncut s hs => rw [segments_of_uncut hs, List.flatMap_singleton, yarnEntry_of_uncut hfeeds hs]
  | cut s before after hcut ih =>
    rw [hcut.eq] at hfeeds
    simp only [List.forall_mem_append] at hfeeds
    rw [segments_of_cutsFirst hcut, List.flatMap_cons, ih hfeeds.2, hcut.eq, splitOn_cut,
      paragraphsOf_append, List.flatMap_append, yarnEntry_of_uncut hfeeds.1.1 hcut.uncut]

end

end DepGraph
