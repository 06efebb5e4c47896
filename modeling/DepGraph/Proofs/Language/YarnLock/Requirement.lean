/-
  DepGraph — the lines of an entry of yarn's lock file that say what it requires.

  Such a line is cut at its blanks, within quotes as well, and each word is taken out of
  its quotes.

  * `solidLines`: the lines of a paragraph as they are looked at.
  * `Requirement.requirement_line`: without blanks, a requirement is read as it was meant.
  * `Requirement.getLast?_trim_line`: its line is no heading.
  * `requirements_read_iff`: when requirements are read as they were meant.
-/
import DepGraph.Proofs.Language.YarnLock.Written

namespace DepGraph

open DepGraph.Text

/-! ## The lines of a paragraph -/

/-- The lines of a paragraph as they are looked at: trimmed, and without the blank ones. -/
def solidLines (ls : List (List Char)) : List (List Char) := (ls.map trim).filter (!·.isEmpty)

@[simp] theorem solidLines_append (ls ls' : List (List Char)) :
    solidLines (ls ++ ls') = solidLines ls ++ solidLines ls' := by
  simp [solidLines]

theorem solidLines_cons {l : List Char} (h : trim l ≠ []) (ls : List (List Char)) :
    solidLines (l :: ls) = trim l :: solidLines ls := by
  simp [solidLines, h]

theorem forall_mem_solidLines {P : List Char → Prop} {ls : List (List Char)}
    (h : ∀ l ∈ ls, P (trim l)) : ∀ l ∈ solidLines ls, P l := by
  intro l hl
  obtain ⟨hl, -⟩ := List.mem_filter.1 hl
  obtain ⟨l', hl', rfl⟩ := List.mem_map.1 hl
  exact h l' hl'

/-! ## Requirements -/

theorem requirement_trim (l : List Char) : requirement (trim l) = requirement l := by
  rw [requirement, words_trim, requirement]

/-- Whatever the line is, the requirement read from it has no blank in it. -/
theorem solid_requirement (l : List Char) : ∀ c ∈ requirement l, isBlank c = false := by
  refine forall_mem_intercalate (by decide) fun p hp c hc => ?_
  obtain ⟨w, hw, rfl⟩ := List.mem_map.1 hp
  exact (mem_of_mem_words hw c (mem_unquote hc)).2

namespace Requirement

variable {r : Requirement}

theorem written_ne_nil {q : Bool} (w : LockWord) : written q w.text ≠ [] := by
  cases q
  · exact w.ne_nil
  · simp [written]

theorem solid_written {q : Bool} {s : List Char} (h : ∀ c ∈ s, isBlank c = false) :
    ∀ c ∈ written q s, isBlank c = false := by
  cases q with
  | false => exact h
  | true =>
    intro c hc
    rw [written_true, List.mem_cons, List.mem_append, List.mem_singleton] at hc
    rcases hc with rfl | hc | rfl
    · decide
    · exact h c hc
    · decide

theorem quote_not_mem (w : LockWord) : '"' ∉ w.text := fun h => (w.plain _ h).1 rfl

/-- Without blanks, a requirement is read as it was meant. -/
theorem requirement_line (h : ∀ c ∈ r.text, isBlank c = false) :
    trim r.line ≠ [] ∧ requirement r.line = r.text := by
  have hname : ∀ c ∈ r.name.text, isBlank c = false :=
    fun c hc => h c (by simp [PackageSpec.text, hc])
  have hrange : ∀ c ∈ r.range.text, isBlank c = false :=
    fun c hc => h c (by simp [PackageSpec.text, hc])
  have hwords : words r.line =
      [written r.nameQuoted r.name.text, written r.rangeQuoted r.range.text] := by
    rw [line, words_append_cons (by decide), words_of_solid (written_ne_nil _) (solid_written hname),
      words_of_solid (written_ne_nil _) (solid_written hrange)]
    rfl
  constructor
  · intro hempty
    rw [← words_trim, hempty] at hwords
    simp at hwords
  · rw [requirement, hwords, List.map_cons, List.map_cons, List.map_nil,
      unquote_written (quote_not_mem _), unquote_written (quote_not_mem _)]
    simp [PackageSpec.text, List.intercalate_cons_cons]

/-- A requirement is no heading: what follows its last quote has no colon in it. -/
theorem getLast?_trim_line (r : Requirement) : (trim r.line).getLast? ≠ some ':' := by
  have hplain {w : LockWord} {q : Bool} (h : needsQuotes w.text = true → q = true)
      (hq : q = false) : ':' ∉ w.text := by
    intro hmem
    have := h (by simp [needsQuotes, hmem])
    simp [hq] at this
  have hstop (x y : List Char) (hy : ':' ∉ y) : (trim (x ++ '"' :: y)).getLast? ≠ some ':' := by
    have hy' : ':' ∉ '"' :: trimRight y := by
      rw [List.mem_cons, not_or]
      exact ⟨by decide, fun hmem => hy (trimRight_subset y hmem)⟩
    rw [trim_append x (by decide), List.getLast?_append]
    intro heq
    have hlast : ('"' :: trimRight y).getLast? = some ':' := by
      simpa [List.getLast?_cons] using heq
    exact hy' (List.mem_of_getLast? hlast)
  rw [line]
  cases hq : r.rangeQuoted with
  | true =>
    have hline : written r.nameQuoted r.name.text ++ ' ' :: written true r.range.text =
        (written r.nameQuoted r.name.text ++ ' ' :: '"' :: r.range.text) ++ '"' :: [] := by
      simp [written]
    rw [hline]
    exact hstop _ _ List.not_mem_nil
  | false =>
    have hrange := hplain r.rangeQuotes hq
    cases hq' : r.nameQuoted with
    | true =>
      have hline : written true r.name.text ++ ' ' :: written false r.range.text =
          ('"' :: r.name.text) ++ '"' :: ' ' :: r.range.text := by
        simp [written]
      rw [hline]
      exact hstop _ _ (by simpa using hrange)
    | false =>
      have hname := hplain r.nameQuotes hq'
      intro hlast
      have hmem := trim_subset _ (List.mem_of_getLast? hlast)
      simp [written, hname, hrange] at hmem

end Requirement

/-- Requirements are read as they were meant iff there is no blank in them. -/
theorem requirements_read_iff (required : List Requirement) :
    (solidLines (required.map Requirement.line)).map requirement = required.map (·.text) ↔
      ∀ r ∈ required, ∀ c ∈ r.text, isBlank c = false := by
  constructor
  · intro heq r hr
    have hmem : r.text ∈ (solidLines (required.map Requirement.line)).map requirement :=
      heq ▸ List.mem_map_of_mem hr
    obtain ⟨l, -, hl⟩ := List.mem_map.1 hmem
    exact hl ▸ solid_requirement l
  · intro h
    induction required with
    | nil => rfl
    | cons r required ih =>
      rw [List.forall_mem_cons] at h
      obtain ⟨hne, hread⟩ := Requirement.requirement_line h.1
      rw [List.map_cons, solidLines_cons hne, List.map_cons, ih h.2, requirement_trim, hread,
        List.map_cons]

end DepGraph
