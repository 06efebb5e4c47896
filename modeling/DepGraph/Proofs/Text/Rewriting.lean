/-
  DepGraph — texts within texts, written anew.

  Where a text occurs within another, the new text is put in its place, and nothing
  else changes.  A character that is not in the text separates what stands before it
  from what stands after it.  So where a text can occur is told by the runs of
  characters between those that it does not hold.

  * `rewritten`: every occurrence of a text written anew.
  * `rewritten_append`, `rewritten_cons`: where the text occurs, and where not.
  * `rewritten_append_cons`, `rewritten_skip`: the two sides of a character that the
    text does not hold, and a beginning in which it cannot start.
  * `rewritten_eq_self_iff`: when nothing changes.
  * `infix_iff_exists_run`: where a text occurs is told by the runs.
  * `runsOutside_flatMap`: escapes do not change the runs, if they hold no character of
    the text.
-/
import Mathlib.Data.List.Infix
import DepGraph.Proofs.Text.Words

namespace DepGraph.Text

/-- Every occurrence of a text within another, from left to right, written anew. -/
def rewritten (old new s : List Char) : List Char := new.intercalate (segments old s)

theorem toList_replaceAll_eq (old new s : String) :
    (replaceAll old new s).toList = rewritten old.toList new.toList s.toList := by
  rw [replaceAll, split, join_map_ofList, String.toList_ofList]
  rfl

/-! ## Occurrences -/

section
variable {old new s : List Char} {c : Char}

theorem exists_cutsFirst_iff (hne : old ≠ []) :
    (∃ before after, CutsFirst old s before after) ↔ old <:+: s := by
  constructor
  · rintro ⟨before, after, h⟩
    exact ⟨before, after, h.eq.symm⟩
  · rintro ⟨front, rest, h⟩
    exact exists_cutsFirst hne h.symm

/-- A character that a text does not hold separates the places where it may occur. -/
theorem infix_append_cons_iff (hne : old ≠ []) (hc : c ∉ old) {a b : List Char} :
    old <:+: a ++ c :: b ↔ old <:+: a ∨ old <:+: b := by
  have hstart {p : List Char} (hp : p <+: c :: b) (hcp : c ∉ p) : p = [] := by
    rcases List.prefix_cons_iff.1 hp with rfl | ⟨t, rfl, -⟩
    · rfl
    · exact absurd List.mem_cons_self hcp
  constructor
  · intro h
    rcases List.infix_append_iff.1 h with h | h | ⟨p, q, rfl, hp, hq⟩
    · exact .inl h
    · rcases List.infix_cons_iff.1 h with h | h
      · exact absurd (hstart h hc) hne
      · exact .inr h
    · obtain rfl := hstart hq fun hmem => hc (List.mem_append_right p hmem)
      rw [List.append_nil]
      exact .inl hp.isInfix
  · rintro (h | h)
    · exact h.trans (List.prefix_append a _).isInfix
    · exact h.trans ((List.suffix_cons c b).isInfix.trans (List.suffix_append a _).isInfix)

/-! ## Writing anew -/

theorem rewritten_of_cutsFirst {before after : List Char} (h : CutsFirst old s before after) :
    rewritten old new s = before ++ new ++ rewritten old new after := by
  rw [rewritten, segments_of_cutsFirst h, intercalate_cons_of_ne_nil (segments_ne_nil old after)]
  rfl

/-- Nothing changes where the text does not occur. -/
theorem rewritten_of_absent (h : ¬ old <:+: s) : rewritten old new s = s := by
  have huncut (before after : List Char) : ¬ CutsFirst old s before after :=
    fun hcut => h ⟨before, after, hcut.eq.symm⟩
  rw [rewritten, segments_of_uncut huncut, List.intercalate_singleton]

@[simp] theorem rewritten_nil (hne : old ≠ []) : rewritten old new [] = [] :=
  rewritten_of_absent fun h => hne (List.infix_nil.1 h)

theorem rewritten_append (hne : old ≠ []) (s : List Char) :
    rewritten old new (old ++ s) = new ++ rewritten old new s := by
  rw [rewritten_of_cutsFirst (cutsFirst_nil_iff.2 ⟨hne, rfl⟩), List.nil_append]

theorem rewritten_cons (hne : old ≠ []) (h : ¬ old <+: c :: s) :
    rewritten old new (c :: s) = c :: rewritten old new s := by
  by_cases hocc : old <:+: s
  · obtain ⟨before, after, hcut⟩ := (exists_cutsFirst_iff hne).2 hocc
    rw [rewritten_of_cutsFirst ((cutsFirst_cons_iff h).2 hcut), rewritten_of_cutsFirst hcut]
    rfl
  · have hocc' : ¬ old <:+: c :: s := fun h' => (List.infix_cons_iff.1 h').elim h hocc
    rw [rewritten_of_absent hocc, rewritten_of_absent hocc']

/-- A text cannot start where its first character does not stand. -/
theorem rewritten_skip (hold : old.head? = some c) (hc : c ∉ s) (rest : List Char) :
    rewritten old new (s ++ rest) = s ++ rewritten old new rest := by
  obtain ⟨tail, rfl⟩ := List.head?_eq_some_iff.1 hold
  induction s with
  | nil => rfl
  | cons d s ih =>
    rw [List.mem_cons, not_or] at hc
    have hstart : ¬ c :: tail <+: d :: (s ++ rest) :=
      fun h => hc.1 (List.cons_prefix_cons.1 h).1
    rw [List.cons_append, rewritten_cons (List.cons_ne_nil c tail) hstart, ih hc.2,
      List.cons_append]

/-- What stands before and after a character that is not in the text changes by itself. -/
theorem rewritten_append_cons (hne : old ≠ []) (hc : c ∉ old) (a b : List Char) :
    rewritten old new (a ++ c :: b) = rewritten old new a ++ c :: rewritten old new b := by
  match a with
  | [] =>
    have hstart : ¬ old <+: c :: b := fun h => by
      rcases List.prefix_cons_iff.1 h with rfl | ⟨t, rfl, -⟩
      · exact hne rfl
      · exact hc List.mem_cons_self
    rw [List.nil_append, rewritten_cons hne hstart, rewritten_nil hne, List.nil_append]
  | d :: a =>
    by_cases h : old <+: d :: a
    · obtain ⟨rest, hrest⟩ := h
      have hlt : rest.length < (d :: a).length := by
        rw [← hrest, List.length_append]
        have := List.length_pos_iff.2 hne
        omega
      rw [← hrest, List.append_assoc, rewritten_append hne, rewritten_append hne,
        rewritten_append_cons hne hc rest b, List.append_assoc]
    · -- the text would have to reach over the character
      have hstart : ¬ old <+: d :: (a ++ c :: b) := by
        intro h'
        rw [← List.cons_append] at h'
        rcases Nat.le_total old.length (d :: a).length with hle | hle
        · exact h (List.prefix_of_prefix_length_le h' (List.prefix_append _ _) hle)
        · obtain ⟨t, rfl⟩ := List.prefix_of_prefix_length_le (List.prefix_append _ _) h' hle
          rw [List.prefix_append_right_inj] at h'
          rcases List.prefix_cons_iff.1 h' with rfl | ⟨t, rfl, -⟩
          · exact h ⟨[], by simp⟩
          · exact hc (by simp)
      rw [List.cons_append, rewritten_cons hne hstart, rewritten_cons hne h,
        rewritten_append_cons hne hc a b, List.cons_append]
  termination_by a.length
  decreasing_by
  · exact hlt
  · exact Nat.lt_succ_self a.length

/-- What follows a text that ends with such a character changes by itself. -/
theorem rewritten_concat_append (hne : old ≠ []) (hc : c ∉ old) (a b : List Char) :
    rewritten old new (a ++ [c] ++ b) = rewritten old new (a ++ [c]) ++ rewritten old new b := by
  rw [List.append_assoc, List.singleton_append, rewritten_append_cons hne hc,
    rewritten_append_cons hne hc, rewritten_nil hne, List.append_assoc, List.singleton_append]

/-- A character that is not in the text becomes no rarer. -/
theorem count_le_count_rewritten (hc : c ∉ old) (new s : List Char) :
    s.count c ≤ (rewritten old new s).count c := by
  induction s using cut_induction old with
  | uncut s h =>
    have hself : rewritten old new s = s := by
      rw [rewritten, segments_of_uncut h, List.intercalate_singleton]
    rw [hself]
  | cut s before after h ih =>
    rw [rewritten_of_cutsFirst h, h.eq]
    simp only [List.count_append, List.count_eq_zero_of_not_mem hc]
    omega

/-- Nothing changes iff the text does not occur, if the new text holds a character that
  it does not. -/
theorem rewritten_eq_self_iff (hne : old ≠ []) (hc : c ∉ old) (hnew : c ∈ new) :
    rewritten old new s = s ↔ ¬ old <:+: s := by
  refine ⟨fun h hocc => ?_, rewritten_of_absent⟩
  obtain ⟨before, after, hcut⟩ := (exists_cutsFirst_iff hne).2 hocc
  have hpos := List.count_pos_iff.2 hnew
  have hafter := count_le_count_rewritten hc new after
  have hcount := congrArg (List.count c) h
  rw [rewritten_of_cutsFirst hcut, hcut.eq] at hcount
  simp only [List.count_append, List.count_eq_zero_of_not_mem hc] at hcount
  omega

end

/-! ## Runs -/

section
variable {p : Char → Bool} {part : List Char} {c : Char}

/-- The runs of a text on the two sides of a character of the class. -/
theorem runsOutside_append_cons (hc : p c = true) (a b : List Char) :
    runsOutside p [] (a ++ c :: b) = runsOutside p [] a ++ runsOutside p [] b := by
  rw [runsOutside_nil_eq, runsOutside_nil_eq, runsOutside_nil_eq,
    List.splitOnP_append_cons a b hc, List.filter_append]

/-- Characters of the class at the beginning do not matter. -/
theorem runsOutside_drop {l : List Char} (hl : ∀ c ∈ l, p c = true) (s : List Char) :
    runsOutside p [] (l ++ s) = runsOutside p [] s := by
  induction l with
  | nil => rfl
  | cons d l ih =>
    rw [List.forall_mem_cons] at hl
    simp [runsOutside, hl.1, ih hl.2]

/-- Characters of the class end the run that is open. -/
theorem runsOutside_ended {l : List Char} (hne : l ≠ []) (hl : ∀ c ∈ l, p c = true)
    (run s : List Char) :
    runsOutside p run (l ++ s) = runsOutside p run [] ++ runsOutside p [] s := by
  obtain ⟨c, l, rfl⟩ := List.exists_cons_of_ne_nil hne
  obtain ⟨hc, hl⟩ := List.forall_mem_cons.1 hl
  cases run <;> simp [runsOutside, hc, runsOutside_drop hl]

/-- Characters of the class between two texts. -/
theorem runsOutside_between {l : List Char} (hne : l ≠ []) (hl : ∀ c ∈ l, p c = true)
    (a b : List Char) :
    runsOutside p [] (a ++ (l ++ b)) = runsOutside p [] a ++ runsOutside p [] b := by
  obtain ⟨c, l, rfl⟩ := List.exists_cons_of_ne_nil hne
  obtain ⟨hc, hl⟩ := List.forall_mem_cons.1 hl
  rw [List.cons_append, runsOutside_append_cons hc, runsOutside_drop hl]

/-- If each character outside the class is written for itself, and each one of the class
  by characters of the class, the runs stay as they are. -/
theorem runsOutside_flatMap {f : Char → List Char} (hkeep : ∀ c, p c = false → f c = [c])
    (hclass : ∀ c, p c = true → f c ≠ [] ∧ ∀ d ∈ f c, p d = true) (run s : List Char) :
    runsOutside p run (s.flatMap f) = runsOutside p run s := by
  induction s generalizing run with
  | nil => rfl
  | cons c rest ih =>
    rw [List.flatMap_cons]
    cases hc : p c with
    | true =>
      have hself : runsOutside p run (c :: rest) = runsOutside p run [] ++ runsOutside p [] rest :=
        runsOutside_ended (List.cons_ne_nil c []) (by simpa using hc) run rest
      rw [runsOutside_ended (hclass c hc).1 (hclass c hc).2, ih, hself]
    | false =>
      rw [hkeep c hc, List.singleton_append]
      simp [runsOutside, hc, ih]

/-- **Where a text occurs is told by the runs**: a text without characters of the class
  occurs within a run, or not at all. -/
theorem infix_iff_exists_run (hne : part ≠ []) (hpart : ∀ c ∈ part, p c = false)
    (run s : List Char) :
    part <:+: run.reverse ++ s ↔ ∃ w ∈ runsOutside p run s, part <:+: w := by
  induction s generalizing run with
  | nil => cases run <;> simp [runsOutside, hne]
  | cons c rest ih =>
    cases hc : p c with
    | true =>
      have hnot : c ∉ part := fun hmem => by simp [hpart c hmem] at hc
      have hrest := ih []
      rw [List.reverse_nil, List.nil_append] at hrest
      rw [infix_append_cons_iff hne hnot, hrest]
      cases run <;> simp [runsOutside, hc, hne]
    | false =>
      have hopen := ih (c :: run)
      rw [List.reverse_cons, List.append_assoc, List.singleton_append] at hopen
      rw [hopen, runsOutside, hc]
      rfl

end

end DepGraph.Text
