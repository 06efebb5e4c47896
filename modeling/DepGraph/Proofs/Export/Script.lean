/-
  DepGraph — JSON within a script.

  A script ends at `</`, so JSON within it is written with a backslash between these
  two characters.  A reader of JSON can only meet `<` within a string, and there an
  escaped slash is a slash.  So the text is read as if it had been left as it was,
  whatever stands before and after.

  * `shielded`: a text with these backslashes; `toList_scriptJson`.
  * `not_infix_shielded`: nothing in it ends a script.
  * `Reader.run_shielded`: it is read as the text without them.
  * `scriptJson_lossless`: the nodes and the edges of a page can be read back.
-/
import DepGraph.Export.Page
import DepGraph.Proofs.Json.Roundtrip
import DepGraph.Proofs.Text.Rewriting

namespace DepGraph

open DepGraph.Json DepGraph.Text

/-- A text with a backslash in the middle of each `</`. -/
def shielded : List Char → List Char
  | '<' :: '/' :: rest => '<' :: '\\' :: '/' :: shielded rest
  | c :: rest => c :: shielded rest
  | [] => []

theorem rewritten_eq_shielded (s : List Char) :
    rewritten "</".toList "<\\/".toList s = shielded s := by
  have hne : "</".toList ≠ [] := by decide
  fun_induction shielded s with
  | case1 rest ih => exact (rewritten_append hne rest).trans (congrArg _ ih)
  | case2 c rest hother ih =>
    have hstart : ¬ "</".toList <+: c :: rest := by
      rintro ⟨after, h⟩
      obtain ⟨hc, hrest⟩ := List.cons.inj h
      exact hother after hc.symm hrest.symm
    rw [rewritten_cons hne hstart, ih]
  | case3 => exact rewritten_nil hne

/-- How the data of a page is written. -/
def pageStyle : Style := ⟨.spaced, true⟩

theorem toList_scriptJson (v : Json) :
    (scriptJson v).toList = shielded (renderAt pageStyle 0 v) := by
  rw [scriptJson, toList_replaceAll_eq, rewritten_eq_shielded, render, String.toList_ofList]
  rfl

/-- A list stands between brackets, which are no part of `</`. -/
theorem exists_scriptJson_array (items : List Json) :
    ∃ s, (scriptJson (.array items)).toList = '[' :: (s ++ [']']) := by
  have hopen : '[' ∉ "</".toList := by decide
  have hclose : ']' ∉ "</".toList := by decide
  obtain ⟨s, hs⟩ : ∃ s, renderAt pageStyle 0 (.array items) = [] ++ '[' :: (s ++ ']' :: []) := by
    cases items with
    | nil => exact ⟨[], rfl⟩
    | cons v rest => exact ⟨_, rfl⟩
  refine ⟨shielded s, ?_⟩
  rw [toList_scriptJson, hs, ← rewritten_eq_shielded, rewritten_append_cons (by decide) hopen,
    rewritten_append_cons (by decide) hclose, rewritten_nil (by decide), rewritten_eq_shielded,
    List.nil_append]

/-! ## Nothing ends the script -/

theorem head?_shielded (s : List Char) : (shielded s).head? = s.head? := by
  fun_cases shielded s <;> rfl

/-- No `</` is left, and none is made. -/
theorem not_infix_shielded (s : List Char) : ¬ "</".toList <:+: shielded s := by
  fun_induction shielded s with
  | case1 rest ih => simpa [List.infix_cons_iff] using ih
  | case2 c rest hother ih =>
    rw [List.infix_cons_iff, not_or]
    refine ⟨?_, ih⟩
    rintro ⟨after, h⟩
    obtain ⟨hc, hrest⟩ := List.cons.inj h
    -- what follows is what followed before
    have hhead : rest.head? = some '/' := by rw [← head?_shielded, ← hrest]; rfl
    obtain ⟨rest, rfl⟩ := List.head?_eq_some_iff.1 hhead
    exact hother rest hc.symm rfl
  | case3 => decide

/-! ## Reading -/

namespace Json

/-- After `<` a reader stands in a string. -/
theorem Reader.step_less {r r' : Reader} (h : r.step '<' = some r') :
    ∃ done, r' = ⟨.string done, r.due⟩ := by
  have hstart : startToken '<' = none := by decide
  obtain ⟨mode, due⟩ := r
  cases mode with
  | string done =>
    have hstep : Reader.step ⟨.string done, due⟩ '<' = some ⟨.string ('<' :: done), due⟩ :=
      step_of_modeStep (by simp) rfl
    exact ⟨_, Option.some.inj (h.symm.trans hstep)⟩
  | bare word =>
    have hbare : isBare '<' = false := by decide
    simp [Reader.step, lexStep, hbare, hstart] at h
  | between => simp [Reader.step, lexStep, modeStep, hstart] at h
  | escape done =>
    have hescape : escapeChar? '<' = none := rfl
    simp [Reader.step, lexStep, modeStep, hescape] at h
  | unicode done half missing code =>
    have hdigit : hexValue? '<' = none := by decide
    simp [Reader.step, lexStep, modeStep, hdigit] at h
  | pair done half backslash => cases backslash <;> simp [Reader.step, lexStep, modeStep] at h

/-- In a string, an escaped slash is a slash. -/
theorem Reader.run_slash (done : List Char) (due : Due) (s : List Char) :
    Reader.run ⟨.string done, due⟩ ('\\' :: '/' :: s) =
      Reader.run ⟨.string done, due⟩ ('/' :: s) := by
  have hback : Reader.step ⟨.string done, due⟩ '\\' = some ⟨.escape done, due⟩ :=
    step_of_modeStep (by simp) rfl
  have hescaped : Reader.step ⟨.escape done, due⟩ '/' = some ⟨.string ('/' :: done), due⟩ :=
    step_of_modeStep (by simp) rfl
  have hslash : Reader.step ⟨.string done, due⟩ '/' = some ⟨.string ('/' :: done), due⟩ :=
    step_of_modeStep (by simp) rfl
  simp only [Reader.run_cons, hback, hescaped, hslash, Option.bind_some]

/-- **The backslashes do not change what is read**, from wherever a reader stands. -/
theorem Reader.run_shielded (r : Reader) (s : List Char) : r.run (shielded s) = r.run s := by
  fun_induction shielded s generalizing r with
  | case1 rest ih =>
    rw [Reader.run_cons, Reader.run_cons]
    cases hless : r.step '<' with
    | none => rfl
    | some r' =>
      obtain ⟨done, rfl⟩ := Reader.step_less hless
      rw [Option.bind_some, Option.bind_some, Reader.run_slash]
      simp only [Reader.run_cons, ih]
  | case2 c rest _ ih => simp only [Reader.run_cons, ih]
  | case3 => rfl

theorem readSettled?_shielded (s : List Char) : readSettled? (shielded s) = readSettled? s := by
  have hrun : (shielded s).foldlM Reader.step Reader.start = s.foldlM Reader.step Reader.start :=
    Reader.run_shielded Reader.start s
  rw [readSettled?, readSettled?, read?, read?, hrun]

end Json

theorem readSettled?_scriptJson {v : Json} (hfree : NumberFree v) (hkeys : KeysDistinct v) :
    readSettled? (scriptJson v).toList = some v := by
  have hread := readSettled?_render pageStyle hfree hkeys
  rwa [render, String.toList_ofList, ← readSettled?_shielded, ← toList_scriptJson] at hread

/-! ## Nodes and edges -/

/-- Objects of strings without equal keys are read back from within a script. -/
theorem readSettled?_scriptJson_objects {α : Type} (members : α → List (String × String))
    (hkeys : ∀ x, ((members x).map Prod.fst).Nodup) (items : List α) :
    readSettled? (scriptJson (.array (items.map fun x =>
        .object ((members x).map fun m => (m.1, .string m.2))))).toList =
      some (.array (items.map fun x => .object ((members x).map fun m => (m.1, .string m.2)))) := by
  refine readSettled?_scriptJson (.array ?_) (.array ?_)
  · intro v hv
    obtain ⟨x, -, rfl⟩ := List.mem_map.1 hv
    refine .object fun m hm => ?_
    obtain ⟨m, -, rfl⟩ := List.mem_map.1 hm
    exact .string m.2
  · intro v hv
    obtain ⟨x, -, rfl⟩ := List.mem_map.1 hv
    refine .object ?_ fun m hm => ?_
    · rw [List.map_map]
      exact hkeys x
    · obtain ⟨m, -, rfl⟩ := List.mem_map.1 hm
      exact .string m.2

/-- **JSON within a script is safe and lossless**: no value that is written there ends
  the script, and any lists of nodes and of edges are read back from it. -/
theorem scriptJson_lossless :
    (∀ v, ¬ "</".toList <:+: (scriptJson v).toList) ∧
      (∀ names : List String, readSettled? (scriptJson (.array (names.map pageNode))).toList =
        some (.array (names.map pageNode))) ∧
      ∀ edges : List Edge, readSettled? (scriptJson (.array (edges.map pageEdge))).toList =
        some (.array (edges.map pageEdge)) := by
  refine ⟨fun v => ?_, fun names => ?_, fun edges => ?_⟩
  · rw [toList_scriptJson]
    exact not_infix_shielded _
  · have hkeys : ["id", "label", "shape"].Nodup := by decide
    exact readSettled?_scriptJson_objects
      (fun name => [("id", name), ("label", name), ("shape", "box")]) (fun _ => hkeys) names
  · have hkeys : ["from", "to", "arrows"].Nodup := by decide
    exact readSettled?_scriptJson_objects
      (fun e : Edge => [("from", e.1), ("to", e.2), ("arrows", "to")]) (fun _ => hkeys) edges

end DepGraph
