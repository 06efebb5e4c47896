/-
  DepGraph — languages that are read line by line.

  The report of such a file is that of its lines, merged from the first to the last.
  Merging does not depend on which reports are merged first, and a line without anything
  on it reports nothing; so two texts with a line feed between them report what they
  report alone, merged.  This holds wherever the line feed falls: it may end the last
  line of the first text, belong to a carriage return before it, or be an empty line.

  * `Report.merge_assoc`: merging reports is associative.
  * `Report.mergeAll_append`: merging the reports of two parts of a file.
  * `scanIncludes_append`: the report of two texts with a line feed between them.
  * `line_scans_compose`: maps, reports and texts.
-/
import DepGraph.Language.Basic
import DepGraph.Proofs.Graph.Merge
import DepGraph.Proofs.Text.Words

namespace DepGraph

open DepGraph.Text

/-! ## Merging reports -/

namespace Report

/-- The last name that is not empty counts, however the names are put together. -/
theorem laterName_assoc (first second third : Option String) :
    laterName (laterName first second) third = laterName first (laterName second third) := by
  cases third with
  | none => rfl
  | some name => by_cases h : name = "" <;> simp [laterName, h]

/-- It does not matter which reports are merged first. -/
theorem merge_assoc (r s t : Report) : (r.merge s).merge t = r.merge (s.merge t) := by
  simp only [merge, laterName_assoc, List.append_assoc, Dependencies.merge_assoc]

theorem merge_empty (r : Report) : r.merge empty = r := by
  simp only [merge, empty, List.append_nil]
  rfl

theorem foldl_merge (parts : List Report) (r s : Report) :
    parts.foldl merge (r.merge s) = r.merge (parts.foldl merge s) := by
  induction parts generalizing s with
  | nil => rfl
  | cons part rest ih => rw [List.foldl_cons, merge_assoc, ih, List.foldl_cons]

/-- The reports of two parts of a file, merged. -/
theorem mergeAll_append (parts more : List Report) :
    mergeAll (parts ++ more) = (mergeAll parts).merge (mergeAll more) :=
  calc mergeAll (parts ++ more)
      = more.foldl merge (mergeAll parts) := List.foldl_append
    _ = more.foldl merge ((mergeAll parts).merge empty) := by rw [merge_empty]
    _ = (mergeAll parts).merge (mergeAll more) := foldl_merge more (mergeAll parts) empty

/-- A part that reports nothing may be left out. -/
theorem mergeAll_empty_cons (parts : List Report) : mergeAll (empty :: parts) = mergeAll parts := by
  rw [mergeAll, List.foldl_cons, merge_empty, mergeAll]

end Report

/-! ## Two texts -/

/-- If a line without anything on it reports nothing, two texts with a line feed between
  them report what they report alone, one after the other. -/
theorem mergeAll_lines_append {scanLine : List Char → Report} (hblank : scanLine [] = .empty)
    (s t : List Char) :
    Report.mergeAll ((lines (s ++ '\n' :: t)).map scanLine) =
      (Report.mergeAll ((lines s).map scanLine)).merge
        (Report.mergeAll ((lines t).map scanLine)) := by
  rcases lines_append_newline s t with h | h
  · rw [h, List.map_append, Report.mergeAll_append]
  · rw [h, List.map_append, List.map_cons, hblank, Report.mergeAll_append,
      Report.mergeAll_empty_cons]

theorem scanIncludes_append (s t : List Char) :
    scanIncludes (s ++ '\n' :: t) = (scanIncludes s).merge (scanIncludes t) :=
  mergeAll_lines_append (by decide) s t

/-- **Reading line by line is compositional.**  Of two dependency maps that are merged, the
  entities of the first come first and its lists go before those of the second; merging
  such maps is associative, and so is merging reports.  Where each line of a file stands
  for itself, the report of a file that consists of two texts with a line feed between
  them is that of the first text, merged with that of the second. -/
theorem line_scans_compose :
    (∀ first second : Dependencies,
      (first.merge second).keys = first.keys ++ second.keys.filter (· ∉ first.keys) ∧
      ∀ name, (first.merge second).targets name = first.targets name ++ second.targets name) ∧
    (∀ first second third : Dependencies,
      (first.merge second).merge third = first.merge (second.merge third)) ∧
    (∀ r s t : Report, (r.merge s).merge t = r.merge (s.merge t)) ∧
    ∀ l ∈ [Language.c, Language.cpp], ∀ (file : Source) (s t : List Char), ∃ first second,
      l.scan { file with text := .ok s } = .ok first ∧
      l.scan { file with text := .ok t } = .ok second ∧
      l.scan { file with text := .ok (s ++ '\n' :: t) } = .ok (first.merge second) := by
  refine ⟨fun first second => ⟨first.keys_merge second, first.targets_merge second⟩,
    Dependencies.merge_assoc, Report.merge_assoc, fun l hl file s t => ?_⟩
  have hscan (text : List Char) : l.scan { file with text := .ok text } = .ok (scanIncludes text) := by
    rcases List.mem_pair.1 hl with rfl | rfl <;> rfl
  exact ⟨scanIncludes s, scanIncludes t, hscan s, hscan t, by rw [hscan, scanIncludes_append]⟩

/-- A file with no other file beside it. -/
def loneFile (text : List Char) : Source :=
  ⟨"main.c", .ok text, fun name => .error (.fault .missing name), ⟨false, false⟩⟩

/-- The line feed falls between two carriage returns: with the one before it, it ends a
  line, and the one after it is an empty line. -/
theorem line_scans_compose_returns :
    Language.c ∈ [Language.c, Language.cpp] ∧ ∃ first second,
      Language.c.scan (loneFile "#include <a.h>\r".toList) = .ok first ∧
      Language.c.scan (loneFile "\r#include \"b.h\"".toList) = .ok second ∧
      Language.c.scan (loneFile "#include <a.h>\r\n\r#include \"b.h\"".toList) =
        .ok (first.merge second) ∧
      (first.merge second).references = ["a.h", "b.h"] := by
  have hc : Language.c ∈ [Language.c, Language.cpp] := List.mem_cons_self
  obtain ⟨first, second, hfirst, hsecond, hboth⟩ := line_scans_compose.2.2.2 .c hc (loneFile [])
    "#include <a.h>\r".toList "\r#include \"b.h\"".toList
  have htext : "#include <a.h>\r".toList ++ '\n' :: "\r#include \"b.h\"".toList =
      "#include <a.h>\r\n\r#include \"b.h\"".toList := by decide
  rw [htext] at hboth
  have hmerged : scanIncludes "#include <a.h>\r\n\r#include \"b.h\"".toList =
      first.merge second := Except.ok.inj hboth
  refine ⟨hc, first, second, hfirst, hsecond, hboth, ?_⟩
  rw [← hmerged]
  decide +kernel

end DepGraph
