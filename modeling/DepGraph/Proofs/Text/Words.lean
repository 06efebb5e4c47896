/-
  DepGraph — blanks, words and lines.

  Words are what is left between the blanks of a text.  So a blank splits a text into
  parts whose words are those of the whole, and blanks at the ends of a text do not
  matter for its words.

  * `words_eq`: the words are the pieces between blanks that are not empty.
  * `words_append_cons`, `words_trim`: blanks between two parts and at the ends.
  * `mem_of_mem_words`, `exists_mem_words`: the characters of the words.
  * `exists_first_word`: where the first word stands.
  * `trim_append`: what trimming leaves.
  * `lines_of_newlines`: the lines of a text where only line feeds end them.
  * `lines_append_newline`: the lines of two texts with a line feed between them.
  * `not_isLineBoundary_of_mem_lines`: no line ends within a line.
-/
import Mathlib.Data.List.DropRight
import Mathlib.Data.List.TakeWhile
import DepGraph.Proofs.Text.Segments
import DepGraph.Text.Blank
import DepGraph.Text.Lines

namespace DepGraph.Text

/-! ## Words -/

theorem runsOutside_eq (p : Char → Bool) (run s : List Char) :
    runsOutside p run s =
      ((s.splitOnP p).modifyHead (run.reverse ++ ·)).filter fun w => !w.isEmpty := by
  induction s generalizing run with
  | nil => cases run <;> simp [runsOutside]
  | cons c rest ih =>
    rw [runsOutside, List.splitOnP_cons_eq_if_modifyHead]
    by_cases hc : p c = true
    · have hrest := ih []
      rw [List.reverse_nil] at hrest
      have hid : (fun w : List Char => [] ++ w) = id := rfl
      rw [hid, List.modifyHead_id, id_eq] at hrest
      cases run <;> simp [hc, hrest]
    · rw [if_neg hc, if_neg hc, ih, List.modifyHead_modifyHead]
      simp [Function.comp_def]

/-- Runs are the pieces between characters of the class that are not empty. -/
theorem runsOutside_nil_eq (p : Char → Bool) (s : List Char) :
    runsOutside p [] s = (s.splitOnP p).filter fun w => !w.isEmpty := by
  have hid : (fun w : List Char => [] ++ w) = id := rfl
  rw [runsOutside_eq, List.reverse_nil, hid, List.modifyHead_id, id_eq]

/-- The words are the pieces between blanks that are not empty. -/
theorem words_eq (s : List Char) :
    words s = (s.splitOnP isBlank).filter fun w => !w.isEmpty := runsOutside_nil_eq isBlank s

section
variable {s x y b w : List Char} {c : Char}

@[simp] theorem words_nil : words [] = [] := rfl

theorem words_append_cons (hc : isBlank c = true) (x y : List Char) :
    words (x ++ c :: y) = words x ++ words y := by
  rw [words_eq, words_eq, words_eq, List.splitOnP_append_cons x y hc, List.filter_append]

theorem words_cons (hc : isBlank c = true) (y : List Char) : words (c :: y) = words y :=
  words_append_cons hc [] y

theorem words_of_solid (hne : w ≠ []) (h : ∀ c ∈ w, isBlank c = false) : words w = [w] := by
  simp [words_eq, List.splitOnP_eq_singleton h, hne]

theorem words_blanks_append (h : ∀ c ∈ b, isBlank c = true) : words (b ++ s) = words s := by
  induction b with
  | nil => rfl
  | cons c rest ih =>
    rw [List.forall_mem_cons] at h
    rw [List.cons_append, words_cons h.1, ih h.2]

theorem ne_of_isBlank {d : Char} (hc : isBlank c = true) (hd : isBlank d = false) : c ≠ d := by
  rintro rfl
  rw [hc] at hd
  cases hd

theorem not_mem_of_blanks (hb : ∀ c ∈ b, isBlank c = true) (hc : isBlank c = false) : c ∉ b :=
  fun hmem => ne_of_isBlank (hb c hmem) hc rfl

theorem words_append_blanks (h : ∀ c ∈ b, isBlank c = true) : words (s ++ b) = words s := by
  cases b with
  | nil => rw [List.append_nil]
  | cons c rest =>
    rw [List.forall_mem_cons] at h
    have hrest : words rest = [] := by
      simpa using words_blanks_append (s := []) h.2
    rw [words_append_cons h.1, hrest, List.append_nil]

/-- The words of a text are made of its characters that are not blank. -/
theorem mem_of_mem_words (h : w ∈ words s) : ∀ c ∈ w, c ∈ s ∧ isBlank c = false := by
  rw [words_eq, List.mem_filter] at h
  obtain ⟨h, -⟩ := h
  induction s generalizing w with
  | nil => simp_all
  | cons c rest ih =>
    rw [List.splitOnP_cons_eq_if_modifyHead] at h
    obtain ⟨first, more, hsplit⟩ := List.exists_cons_of_ne_nil (List.splitOnP_ne_nil isBlank rest)
    rw [hsplit] at ih
    have hkept {w : List Char} (hw : w ∈ first :: more) :
        ∀ d ∈ w, d ∈ c :: rest ∧ isBlank d = false :=
      fun d hd => ⟨List.mem_cons_of_mem c (ih hw d hd).1, (ih hw d hd).2⟩
    by_cases hc : isBlank c = true
    · rw [if_pos hc, hsplit, List.mem_cons] at h
      rcases h with rfl | h
      · simp
      · exact hkept h
    · rw [if_neg hc, hsplit, List.modifyHead_cons, List.mem_cons] at h
      rcases h with rfl | h
      · rw [List.forall_mem_cons]
        exact ⟨⟨List.mem_cons_self, by simpa using hc⟩, hkept List.mem_cons_self⟩
      · exact hkept (List.mem_cons_of_mem _ h)

theorem exists_mem_words (hc : isBlank c = false) (h : c ∈ s) : ∃ w ∈ words s, c ∈ w := by
  have hpiece : ∃ w ∈ s.splitOnP isBlank, c ∈ w := by
    induction s with
    | nil => simp at h
    | cons d rest ih =>
      rw [List.splitOnP_cons_eq_if_modifyHead]
      obtain ⟨first, more, hsplit⟩ :=
        List.exists_cons_of_ne_nil (List.splitOnP_ne_nil isBlank rest)
      rw [hsplit] at ih ⊢
      rcases List.mem_cons.1 h with rfl | h
      · rw [if_neg (by simp [hc]), List.modifyHead_cons]
        exact ⟨_, List.mem_cons_self, List.mem_cons_self⟩
      · obtain ⟨w, hw, hcw⟩ := ih h
        split
        · exact ⟨w, List.mem_cons_of_mem _ hw, hcw⟩
        · rw [List.modifyHead_cons]
          rcases List.mem_cons.1 hw with rfl | hw
          · exact ⟨_, List.mem_cons_self, List.mem_cons_of_mem _ hcw⟩
          · exact ⟨w, List.mem_cons_of_mem _ hw, hcw⟩
  obtain ⟨w, hw, hcw⟩ := hpiece
  rw [words_eq]
  exact ⟨w, List.mem_filter.2 ⟨hw, by simpa using List.ne_nil_of_mem hcw⟩, hcw⟩

theorem words_solid_append (hne : w ≠ []) (hw : ∀ c ∈ w, isBlank c = false)
    (hs : ∀ c ∈ s.head?, isBlank c = true) : words (w ++ s) = w :: words s := by
  cases s with
  | nil => rw [List.append_nil, words_of_solid hne hw, words_nil]
  | cons c rest =>
    have hc : isBlank c = true := hs c rfl
    rw [words_append_cons hc, words_of_solid hne hw, words_cons hc, List.singleton_append]

/-! ## Blanks at the ends -/

theorem exists_trimLeft (s : List Char) : ∃ b, (∀ c ∈ b, isBlank c = true) ∧ s = b ++ trimLeft s :=
  ⟨s.takeWhile isBlank, fun _ hc => List.mem_takeWhile_imp hc,
    List.takeWhile_append_dropWhile.symm⟩

theorem exists_trimRight (s : List Char) :
    ∃ b, (∀ c ∈ b, isBlank c = true) ∧ s = trimRight s ++ b :=
  ⟨s.rtakeWhile isBlank, fun _ hc => List.mem_rtakeWhile_imp hc,
    List.rdropWhile_append_rtakeWhile.symm⟩

theorem words_trimLeft (s : List Char) : words (trimLeft s) = words s := by
  obtain ⟨b, hb, hs⟩ := exists_trimLeft s
  conv_rhs => rw [hs]
  exact (words_blanks_append hb).symm

theorem words_trimRight (s : List Char) : words (trimRight s) = words s := by
  obtain ⟨b, hb, hs⟩ := exists_trimRight s
  conv_rhs => rw [hs]
  exact (words_append_blanks hb).symm

/-- Blanks at the ends of a text do not matter for its words. -/
theorem words_trim (s : List Char) : words (trim s) = words s := by
  rw [trim, words_trimRight, words_trimLeft]

theorem trimLeft_subset (s : List Char) : trimLeft s ⊆ s :=
  (List.dropWhile_sublist isBlank).subset

theorem trimRight_subset (s : List Char) : trimRight s ⊆ s :=
  (List.rdropWhile_prefix isBlank s).subset

theorem trim_subset (s : List Char) : trim s ⊆ s :=
  List.Subset.trans (trimRight_subset _) (trimLeft_subset s)

theorem trimLeft_of_head (h : ∀ c ∈ s.head?, isBlank c = false) : trimLeft s = s := by
  cases s with
  | nil => rfl
  | cons c rest => exact List.dropWhile_cons_of_neg (by simp [h c rfl])

theorem trimRight_concat (x : List Char) (hc : isBlank c = false) :
    trimRight (x ++ [c]) = x ++ [c] :=
  List.rdropWhile_concat_neg isBlank x c (by simp [hc])

theorem trimLeft_append (x : List Char) (hc : isBlank c = false) :
    trimLeft (x ++ c :: y) = trimLeft x ++ c :: y := by
  induction x with
  | nil => exact List.dropWhile_cons_of_neg (by simp [hc])
  | cons d rest ih =>
    rw [trimLeft] at ih ⊢
    by_cases hd : isBlank d = true <;> simp [trimLeft, hd, ih]

theorem trimRight_append (x : List Char) (hc : isBlank c = false) :
    trimRight (x ++ c :: y) = x ++ c :: trimRight y := by
  have hrev : (x ++ c :: y).reverse = y.reverse ++ c :: x.reverse := by simp
  have hleft := trimLeft_append (y := x.reverse) y.reverse hc
  rw [trimLeft] at hleft
  rw [trimRight, hrev, hleft]
  simp [trimRight, trimLeft]

/-- A character that is not blank stays, and so does what stands between two of them. -/
theorem trim_append (x : List Char) (hc : isBlank c = false) :
    trim (x ++ c :: y) = trimLeft x ++ c :: trimRight y := by
  rw [trim, trimLeft_append x hc, trimRight_append _ hc]

theorem head_of_trim_eq_self (h : trim s = s) : ∀ c ∈ s.head?, isBlank c = false := by
  have hle : (trim s).length ≤ (trimLeft s).length :=
    (List.rdropWhile_prefix isBlank (trimLeft s)).length_le
  have hsuffix : trimLeft s <:+ s := List.dropWhile_suffix isBlank
  rw [h] at hle
  have hleft : trimLeft s = s := hsuffix.eq_of_length_le hle
  intro c hc
  cases s with
  | nil => simp at hc
  | cons d rest =>
    obtain rfl : d = c := by simpa using hc
    by_contra hblank
    rw [trimLeft, List.dropWhile_cons_of_pos (by simpa using hblank)] at hleft
    have := (List.dropWhile_suffix isBlank (l := rest)).length_le
    rw [hleft, List.length_cons] at this
    omega

theorem head_trimLeft (s : List Char) : ∀ c ∈ (trimLeft s).head?, isBlank c = false := by
  intro c hc
  have hnot := List.head?_dropWhile_not isBlank s
  rw [trimLeft] at hc
  rw [Option.mem_def.1 hc] at hnot
  simpa using hnot

/-- The first word stands between blanks. -/
theorem exists_first_word {ws : List (List Char)} (h : words s = w :: ws) :
    ∃ b rest, s = b ++ (w ++ rest) ∧ (∀ c ∈ b, isBlank c = true) ∧ w ≠ [] ∧
      (∀ c ∈ w, isBlank c = false) ∧ (∀ c ∈ rest.head?, isBlank c = true) ∧ words rest = ws := by
  obtain ⟨b, hb, hs⟩ := exists_trimLeft s
  have hhead := head_trimLeft s
  rw [← words_trimLeft] at h
  generalize trimLeft s = front at hs hhead h
  obtain ⟨d, more, rfl⟩ : ∃ d more, front = d :: more :=
    List.exists_cons_of_ne_nil (by rintro rfl; simp at h)
  have hd : isBlank d = false := hhead d rfl
  have hrun : ∀ c ∈ d :: more.takeWhile (!isBlank ·), isBlank c = false :=
    List.forall_mem_cons.2 ⟨hd, fun c hc => by simpa using List.mem_takeWhile_imp hc⟩
  have hrest : ∀ c ∈ (more.dropWhile (!isBlank ·)).head?, isBlank c = true := by
    intro c hc
    have hnot := List.head?_dropWhile_not (!isBlank ·) more
    rw [Option.mem_def.1 hc] at hnot
    simpa using hnot
  have hsplit : d :: more = (d :: more.takeWhile (!isBlank ·)) ++ more.dropWhile (!isBlank ·) := by
    rw [List.cons_append, List.takeWhile_append_dropWhile]
  rw [hsplit, words_solid_append (List.cons_ne_nil _ _) hrun hrest] at h
  obtain ⟨rfl, rfl⟩ := List.cons.inj h
  exact ⟨b, _, by rw [hs, hsplit], hb, List.cons_ne_nil _ _, hrun, hrest, rfl⟩

/-! ## Lines -/

/-- Lines with line feeds between them. -/
def fedLines (ls : List String) : List Char := ['\n'].intercalate (ls.map String.toList)

/-- A character that is not one boundary together with a line feed after it. -/
theorem lines_cons (h : c = '\r' → s.head? ≠ some '\n') :
    lines (c :: s) = if isLineBoundary c then [] :: lines s else consLine c (lines s) := by
  rw [lines]
  rintro rest rfl rfl
  exact h rfl rfl

theorem lines_eq_nil_iff : lines s = [] ↔ s = [] := by
  constructor
  · fun_cases lines s with
    | case1 => exact fun _ => rfl
    | case2 rest => simp
    | case3 c rest _ hc => simp
    | case4 c rest _ hc =>
      intro h
      cases hlines : lines rest <;> simp [hlines, consLine] at h
  · rintro rfl
    rfl

/-- A line feed between two texts ends a line of the first one, or is an empty line between
  their lines. -/
theorem lines_append_newline (s t : List Char) :
    lines (s ++ '\n' :: t) = lines s ++ lines t ∨
      lines (s ++ '\n' :: t) = lines s ++ [] :: lines t := by
  fun_induction lines s with
  | case1 => exact .inr rfl
  | case2 rest ih => exact ih.imp (congrArg ([] :: ·)) (congrArg ([] :: ·))
  | case3 c rest hfeed hc ih =>
    cases rest with
    | nil =>
      by_cases hreturn : c = '\r'
      · -- the line feed belongs to the carriage return before it
        subst hreturn
        exact .inl rfl
      · refine .inr ?_
        rw [List.singleton_append, lines_cons fun h => absurd h hreturn, if_pos hc]
        rfl
    | cons d rest =>
      have hcons : lines (c :: (d :: rest ++ '\n' :: t)) = [] :: lines (d :: rest ++ '\n' :: t) := by
        rw [lines_cons, if_pos hc]
        rintro rfl hd
        exact hfeed rest rfl (by rw [Option.some.inj hd])
      exact (hcons ▸ ih.imp (congrArg ([] :: ·)) (congrArg ([] :: ·)))
  | case4 c rest hfeed hc ih =>
    have hreturn : c ≠ '\r' := by
      rintro rfl
      exact hc (by decide)
    rw [List.cons_append, lines_cons fun h => absurd h hreturn, if_neg hc]
    cases hlines : lines rest with
    | nil =>
      obtain rfl := lines_eq_nil_iff.1 hlines
      exact .inl rfl
    | cons first more =>
      rw [hlines] at ih
      exact ih.imp (fun h => by rw [h]; rfl) (fun h => by rw [h]; rfl)

/-- Where only line feeds end lines, the lines are the pieces between them; a line feed at
  the end opens no further line. -/
theorem lines_of_newlines (h : ∀ c ∈ s, isLineBoundary c = true → c = '\n') :
    s.splitOn '\n' = lines s ∨ s.splitOn '\n' = lines s ++ [[]] := by
  induction s with
  | nil => exact .inr rfl
  | cons c rest ih =>
    rw [List.forall_mem_cons] at h
    have hreturn : c ≠ '\r' := by
      rintro rfl
      exact absurd (h.1 (by decide)) (by decide)
    rw [List.splitOn_cons_eq_if_modifyHead, lines_cons fun h => absurd h hreturn]
    by_cases hc : c = '\n'
    · subst hc
      have hend : isLineBoundary '\n' = true := by decide
      rcases ih h.2 with heq | heq <;> simp [hend, heq]
    · have hend : isLineBoundary c = false := by
        rw [Bool.eq_false_iff]
        exact fun hb => hc (h.1 hb)
      rw [if_neg (by simpa using hc), if_neg (by simp [hend])]
      rcases ih h.2 with heq | heq
      · obtain ⟨first, more, hlines⟩ := List.exists_cons_of_ne_nil
          (heq ▸ List.splitOn_ne_nil '\n' rest)
        exact .inl (by rw [heq, hlines]; rfl)
      · cases hlines : lines rest with
        | nil => exact .inl (by rw [heq, hlines]; rfl)
        | cons first more => exact .inr (by rw [heq, hlines]; rfl)

theorem not_isLineBoundary_of_mem_lines {l : List Char} (h : l ∈ lines s) :
    ∀ c ∈ l, isLineBoundary c = false := by
  fun_induction lines s generalizing l with
  | case1 => simp at h
  | case2 rest ih =>
    rcases List.mem_cons.1 h with rfl | h
    · simp
    · exact ih h
  | case3 c rest _ hc ih =>
    rcases List.mem_cons.1 h with rfl | h
    · simp
    · exact ih h
  | case4 c rest _ hc ih =>
    cases hlines : lines rest with
    | nil =>
      rw [hlines, consLine, List.mem_singleton] at h
      subst h
      simpa using hc
    | cons first more =>
      rw [hlines] at h ih
      rcases List.mem_cons.1 h with rfl | h
      · rw [List.forall_mem_cons]
        exact ⟨by simpa using hc, ih List.mem_cons_self⟩
      · exact ih (List.mem_cons_of_mem _ h)

end

end DepGraph.Text
