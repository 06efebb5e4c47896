/-
  DepGraph — line ends in values that were written.

  A carriage return in a string is written as an escape, and blanks are spaces and
  line feeds.  So the text of a value holds no carriage return, and a text file that
  holds it is read as it was written.

  * `return_not_mem_renderAt`: a carriage return does not occur in a text.
  * `foldNewlines_eq_self`: reading line ends changes nothing without one.
-/
import DepGraph.Proofs.Json.Roundtrip
import DepGraph.Text.Lines

namespace DepGraph.Json

open DepGraph.Text

theorem return_not_mem_hexDigits (width n : Nat) : '\r' ∉ hexDigits width n := by
  induction width generalizing n with
  | zero => exact List.not_mem_nil
  | succ width ih =>
    have hdigit : '\r' ≠ hexDigit n := by
      intro h
      have hvalue := hexValue?_hexDigit n
      rw [← h] at hvalue
      cases hvalue
    simp [hexDigits, ih, hdigit]

theorem return_not_mem_escapedChar (asciiOnly : Bool) (c : Char) :
    '\r' ∉ escapedChar asciiOnly c := by
  have hescape : ∀ n, '\r' ∉ unicodeEscape n := by
    simp [unicodeEscape, return_not_mem_hexDigits]
  unfold escapedChar
  split
  · decide
  · decide
  · decide
  · decide
  · decide
  · decide
  · decide
  · next _ _ _ hreturn _ _ _ =>
    dsimp only
    split
    · exact hescape _
    split
    · split
      · exact hescape _
      · simp [hescape]
    · simpa using Ne.symm hreturn

theorem return_not_mem_renderString (asciiOnly : Bool) (s : String) :
    '\r' ∉ renderString asciiOnly s := by
  simp [renderString, return_not_mem_escapedChar]

section
variable (sp : Spacing) (depth : Nat)

theorem return_not_mem_opening : '\r' ∉ sp.opening depth := by
  cases sp <;> simp [Spacing.opening]

theorem return_not_mem_closing : '\r' ∉ sp.closing depth := by
  cases sp <;> simp [Spacing.closing]

theorem return_not_mem_between : '\r' ∉ sp.between depth := by
  cases sp <;> simp [Spacing.between]

theorem return_not_mem_colon : '\r' ∉ sp.colon := by
  cases sp <;> simp [Spacing.colon]

end

section
variable {st : Style} {depth : Nat}

theorem return_not_mem_renderItems {items : List Json}
    (h : ∀ v ∈ items, ∀ depth, '\r' ∉ renderAt st depth v) :
    '\r' ∉ renderItems st depth items := by
  induction items with
  | nil => exact List.not_mem_nil
  | cons v rest ih =>
    rw [List.forall_mem_cons] at h
    simp [renderItems, return_not_mem_between, h.1, ih h.2]

theorem return_not_mem_renderMembers {members : List (String × Json)}
    (h : ∀ m ∈ members, ∀ depth, '\r' ∉ renderAt st depth m.2) :
    '\r' ∉ renderMembers st depth members := by
  induction members with
  | nil => exact List.not_mem_nil
  | cons m rest ih =>
    rw [List.forall_mem_cons] at h
    simp [renderMembers, return_not_mem_between, return_not_mem_renderString,
      return_not_mem_colon, h.1, ih h.2]

end

/-- The text of a value holds no carriage return. -/
theorem return_not_mem_renderAt (st : Style) {v : Json} (h : NumberFree v) (depth : Nat) :
    '\r' ∉ renderAt st depth v := by
  induction h generalizing depth with
  | null => exact (by decide : '\r' ∉ "null".toList)
  | bool b =>
    cases b with
    | false => exact (by decide : '\r' ∉ "false".toList)
    | true => exact (by decide : '\r' ∉ "true".toList)
  | string s => exact return_not_mem_renderString _ s
  | @array items _ ih =>
    cases items with
    | nil => exact (by decide : '\r' ∉ ['[', ']'])
    | cons v rest =>
      rw [List.forall_mem_cons] at ih
      simp [renderAt, return_not_mem_opening, return_not_mem_closing, ih.1,
        return_not_mem_renderItems ih.2]
  | @object members _ ih =>
    cases members with
    | nil => exact (by decide : '\r' ∉ ['{', '}'])
    | cons m rest =>
      rw [List.forall_mem_cons] at ih
      simp [renderAt, return_not_mem_opening, return_not_mem_closing, return_not_mem_renderString,
        return_not_mem_colon, ih.1, return_not_mem_renderMembers ih.2]

end DepGraph.Json

namespace DepGraph.Text

/-- Reading line ends changes nothing in a text without a carriage return. -/
theorem foldNewlines_eq_self {s : List Char} (h : '\r' ∉ s) : foldNewlines s = s := by
  induction s with
  | nil => rfl
  | cons c rest ih =>
    obtain ⟨hc, hrest⟩ := not_or.1 (mt List.mem_cons.2 h)
    unfold foldNewlines
    split
    · next heq => cases heq
    · next heq => exact absurd (List.cons.inj heq).1.symm hc
    · next heq => exact absurd (List.cons.inj heq).1.symm hc
    · next heq =>
      obtain ⟨rfl, rfl⟩ := List.cons.inj heq
      rw [ih hrest]

end DepGraph.Text
