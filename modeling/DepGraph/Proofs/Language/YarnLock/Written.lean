/-
  DepGraph — how the lock file of yarn is written.

  A lock file is written in paragraphs, which empty lines separate: comments, and entries.
  The first line of an entry lists packages, each with the range of versions asked for;
  a block further down lists what these packages require, again with ranges.  A text stands
  within quotes where it needs them, and the quotes are no part of it.

  * `ListedSpec`, `Requirement`: a package that is listed or required, and its quotes.
  * `LockEntry`, `LockPart`: what is written; `LockPart.pairs`: what it says.
  * `WrittenAs`: a text whose paragraphs are these parts.
  * `LockPart.IsReadable`: what is read as it was meant.
  * `unquote_written`: quotes are taken away again.
-/
import DepGraph.Language.Package
import DepGraph.Proofs.Text.Words

namespace DepGraph

open DepGraph.Text

/-! ## What is written -/

/-- A text has to stand within quotes. -/
def needsQuotes (s : List Char) : Bool := s.head? == some '@' || s.contains ' ' || s.contains ':'

/-- A text as it is written, within quotes or not. -/
def written (quoted : Bool) (s : List Char) : List Char := if quoted then '"' :: (s ++ ['"']) else s

/-- The name of a package, or a range of versions. -/
structure LockWord where
  text : List Char
  ne_nil : text ≠ []
  plain : ∀ c ∈ text, c ≠ '"' ∧ c ≠ ','

/-- A package with a range of versions. -/
structure PackageSpec where
  name : LockWord
  range : LockWord

/-- The one text by which entries and requirements speak of a package. -/
def PackageSpec.text (p : PackageSpec) : List Char := p.name.text ++ '@' :: p.range.text

/-- A package as the first line of an entry lists it. -/
structure ListedSpec extends PackageSpec where
  quoted : Bool
  quotes : needsQuotes toPackageSpec.text = true → quoted = true

def ListedSpec.chars (s : ListedSpec) : List Char := written s.quoted s.text

/-- A package as an entry requires it. -/
structure Requirement extends PackageSpec where
  nameQuoted : Bool
  rangeQuoted : Bool
  nameQuotes : needsQuotes name.text = true → nameQuoted = true
  rangeQuotes : needsQuotes range.text = true → rangeQuoted = true

def Requirement.line (r : Requirement) : List Char :=
  written r.nameQuoted r.name.text ++ ' ' :: written r.rangeQuoted r.range.text

/-- The line above the requirements. -/
def blockHeading : List Char := "dependencies:".toList

/-- The requirements of an entry, and the blocks that follow. -/
structure LockBlock where
  required : List Requirement
  later : List (List Char)
  later_heading : ∀ l ∈ later.head?, (trim l).getLast? = some ':'

/-- An entry: the packages listed on its first line, other lines, and a block if anything is
  required. -/
structure LockEntry where
  specs : List ListedSpec
  specs_ne_nil : specs ≠ []
  fields : List (List Char)
  fields_plain : ∀ l ∈ fields, ¬ blockHeading <+: trim l
  block : Option LockBlock

def listing (specs : List ListedSpec) : List Char :=
  [',', ' '].intercalate (specs.map ListedSpec.chars) ++ [':']

namespace LockEntry

def required (e : LockEntry) : List Requirement := (e.block.map LockBlock.required).getD []

def lines (e : LockEntry) : List (List Char) :=
  listing e.specs :: (e.fields ++ match e.block with
    | none => []
    | some b => blockHeading :: (b.required.map Requirement.line ++ b.later))

/-- Each package of an entry, with all that the entry requires. -/
def pairs (e : LockEntry) : List (String × List String) :=
  e.specs.map fun s => (String.ofList s.text, e.required.map fun r => String.ofList r.text)

end LockEntry

/-- A paragraph of a lock file. -/
inductive LockPart where
  | comment (first : List Char) (more : List (List Char))
  | entry (e : LockEntry)

namespace LockPart

def lines : LockPart → List (List Char)
  | comment first more => ('#' :: first) :: more
  | entry e => e.lines

/-- What a paragraph says. -/
def pairs : LockPart → List (String × List String)
  | comment .. => []
  | entry e => e.pairs

end LockPart

/-- The runs of lines between empty lines. -/
def paragraphsOf (ls : List (List Char)) : List (List (List Char)) :=
  (ls.splitOnP (·.isEmpty)).filter fun p => !p.isEmpty

/-- A text has the parts of a lock file as its paragraphs, whatever the indentation. -/
def WrittenAs (text : List Char) (file : List LockPart) : Prop :=
  (∀ c ∈ text, isLineBoundary c = true → c = '\n') ∧
    (paragraphsOf (text.splitOn '\n')).map (List.map trim) =
      file.map fun part => part.lines.map trim

instance (text : List Char) (file : List LockPart) : Decidable (WrittenAs text file) :=
  inferInstanceAs (Decidable (_ ∧ _))

/-! ## What is read as it was meant -/

/-- A listed package has no colon in it, and without quotes no blank at its ends. -/
def ListedSpec.IsReadable (s : ListedSpec) : Prop :=
  ':' ∉ s.text ∧ (s.quoted = false → trim s.text = s.text)

instance (s : ListedSpec) : Decidable s.IsReadable := inferInstanceAs (Decidable (_ ∧ _))

/-- The packages listed are readable, the first of them does not make the entry a comment, and
  no requirement has a blank in it. -/
def LockEntry.IsReadable (e : LockEntry) : Prop :=
  (∀ s ∈ e.specs, s.IsReadable) ∧ (listing e.specs).head? ≠ some '#' ∧
    ∀ r ∈ e.required, ∀ c ∈ r.text, isBlank c = false

instance (e : LockEntry) : Decidable e.IsReadable := inferInstanceAs (Decidable (_ ∧ _ ∧ _))

/-- Comments are always readable. -/
def LockPart.IsReadable : LockPart → Prop
  | comment .. => True
  | entry e => e.IsReadable

instance : DecidablePred LockPart.IsReadable
  | .comment .. => isTrue trivial
  | .entry e => inferInstanceAs (Decidable e.IsReadable)

/-! ## Quotes -/

section
variable {s : List Char} {q : Bool}

theorem written_true (s : List Char) : written true s = '"' :: (s ++ ['"']) := rfl

theorem written_false (s : List Char) : written false s = s := rfl

theorem unquote_of_not_mem (h : '"' ∉ s) : unquote s = s := by
  have hhead : s.head? ≠ some '"' := fun heq => h (List.mem_of_mem_head? heq)
  simp [unquote, hhead]

theorem unquote_written (h : '"' ∉ s) : unquote (written q s) = s := by
  cases q with
  | false => exact unquote_of_not_mem h
  | true => simp [written, unquote, List.getLast?_cons]

/-- A quote that is not closed is not taken away. -/
theorem unquote_open (h : '"' ∉ s) : unquote ('"' :: s) = '"' :: s := by
  have hlast : ¬ (2 ≤ ('"' :: s).length && ('"' :: s).head? == some '"' &&
      ('"' :: s).getLast? == some '"') = true := by
    cases s using List.reverseRecOn with
    | nil => simp
    | append_singleton x c =>
      have hc : '"' ≠ c := by
        rintro rfl
        exact h (by simp)
      rw [← List.cons_append, List.getLast?_append]
      simp [Ne.symm hc]
  rw [unquote, if_neg hlast]

theorem trim_written_true (s : List Char) : trim (written true s) = written true s := by
  have hquote : isBlank '"' = false := by decide
  rw [written_true, ← List.nil_append ('"' :: _), trim_append [] hquote,
    trimRight_concat s hquote]
  rfl

theorem mem_unquote {c : Char} (h : c ∈ unquote s) : c ∈ s := by
  rw [unquote] at h
  split at h
  · exact List.mem_of_mem_drop ((List.dropLast_sublist _).subset h)
  · exact h

end

namespace PackageSpec

variable (p : PackageSpec)

theorem text_ne_nil : p.text ≠ [] := by simp [text]

theorem plain_text : ∀ c ∈ p.text, c ≠ '"' ∧ c ≠ ',' := by
  intro c hc
  rw [text, List.mem_append, List.mem_cons] at hc
  rcases hc with hc | rfl | hc
  · exact p.name.plain c hc
  · decide
  · exact p.range.plain c hc

theorem quote_not_mem_text : '"' ∉ p.text := fun h => (p.plain_text _ h).1 rfl

end PackageSpec

end DepGraph
