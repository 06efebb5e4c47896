/-
  DepGraph — reading names between double quotes.

  A quoted name may hold line ends, and a backslash takes the meaning from the
  character after it.  So whether a line ends depends on what was read before it.
  A written name is read back, whatever follows it, and no line ends within it.

  * `QuoteState`: where a reader stands.
  * `quotedLines`: the lines of a text.
  * `quotedLines_join`: lines that end outside of quotes are read back.
  * `readName?`: the name that a text starts with, and what follows it.
  * `readName?_quotedName`: written names are read back.
-/
import DepGraph.Export.Dot
import DepGraph.Proofs.Text.Segments

namespace DepGraph

open DepGraph.Text

/-- Where a reader of quoted names stands. -/
inductive QuoteState
  | outside
  | inside
  /-- After a backslash. -/
  | escaped
  deriving DecidableEq, Repr

/-- One character further; none at the end of a line. -/
def QuoteState.step? : QuoteState → Char → Option QuoteState
  | outside, c => if c = '\n' then none else some (if c = '"' then inside else outside)
  | inside, c => some (if c = '"' then outside else if c = '\\' then escaped else inside)
  | escaped, _ => some inside

/-- The lines of a text, from where a reader stands. -/
def quotedLinesFrom (state : QuoteState) : List Char → List (List Char)
  | [] => [[]]
  | c :: rest =>
    match state.step? c with
    | none => [] :: quotedLinesFrom .outside rest
    | some state' => (quotedLinesFrom state' rest).modifyHead (c :: ·)

/-- The lines of a text; line ends between double quotes do not count. -/
def quotedLines (text : String) : List String :=
  (quotedLinesFrom .outside text.toList).map String.ofList

/-- No line ends within a text, from outside of quotes to outside of quotes. -/
def IsLine (text : String) : Prop :=
  text.toList.foldlM QuoteState.step? QuoteState.outside = some .outside

instance (text : String) : Decidable (IsLine text) := inferInstanceAs (Decidable (_ = _))

/-- The name up to the next double quote, and what follows it. -/
def readInside : List Char → Option (List Char × List Char)
  | [] => none
  | '"' :: rest => some ([], rest)
  | '\\' :: c :: rest => (readInside rest).map fun read => (c :: read.1, read.2)
  | c :: rest => (readInside rest).map fun read => (c :: read.1, read.2)

/-- The name between double quotes that a text starts with, and what follows it. -/
def readName? (text : String) : Option (String × String) := do
  let (name, after) ← readInside (← dropPrefix? "\"" text).toList
  return (.ofList name, .ofList after)

/-! ## Lines -/

theorem quotedLinesFrom_append {state state' : QuoteState} {part : List Char}
    (h : part.foldlM QuoteState.step? state = some state') (rest : List Char) :
    quotedLinesFrom state (part ++ rest) =
      (quotedLinesFrom state' rest).modifyHead (part ++ ·) := by
  induction part generalizing state with
  | nil =>
    obtain rfl : state = state' := Option.some.inj h
    exact (congrFun List.modifyHead_id _).symm
  | cons c part ih =>
    rw [List.foldlM_cons] at h
    obtain ⟨next, hnext, hpart⟩ := Option.bind_eq_some_iff.1 h
    rw [List.cons_append, quotedLinesFrom, hnext]
    simp only [ih hpart, List.modifyHead_modifyHead]
    rfl

theorem IsLine.append {s t : String} (hs : IsLine s) (ht : IsLine t) : IsLine (s ++ t) := by
  rw [IsLine, String.toList_append, List.foldlM_append, hs]
  exact ht

/-- No line ends where there are neither line ends nor quotes. -/
theorem isLine_of_plain {s : String} (h : ∀ c ∈ s.toList, c ≠ '"' ∧ c ≠ '\n') : IsLine s := by
  unfold IsLine
  generalize s.toList = chars at h ⊢
  induction chars with
  | nil => rfl
  | cons c rest ih =>
    obtain ⟨⟨hquote, hend⟩, hrest⟩ := List.forall_mem_cons.1 h
    rw [List.foldlM_cons, QuoteState.step?, if_neg hend, if_neg hquote]
    exact ih hrest

/-- **Lines are read back**, if every line ends outside of quotes. -/
theorem quotedLines_join {lines : List String} (hne : lines ≠ []) (h : ∀ l ∈ lines, IsLine l) :
    quotedLines (join "\n" lines) = lines := by
  induction lines with
  | nil => exact absurd rfl hne
  | cons first rest ih =>
    obtain ⟨hfirst, hrest⟩ := List.forall_mem_cons.1 h
    cases rest with
    | nil =>
      have hlast := quotedLinesFrom_append hfirst []
      rw [List.append_nil] at hlast
      simp [join, String.intercalate_singleton, quotedLines, hlast, quotedLinesFrom]
    | cons second rest =>
      have hend (after : List Char) :
          quotedLinesFrom .outside ('\n' :: after) = [] :: quotedLinesFrom .outside after := rfl
      have hih := ih (List.cons_ne_nil second rest) hrest
      rw [quotedLines] at hih
      rw [join, String.intercalate_cons_cons, ← join, quotedLines, String.toList_append,
        String.toList_append, List.append_assoc, quotedLinesFrom_append hfirst]
      simp [hend, hih]

/-! ## Quoted names -/

/-- A character of a quoted name as it is written. -/
def quotedChar (c : Char) : List Char :=
  if c = '\\' then ['\\', '\\'] else if c = '"' then ['\\', '"'] else [c]

theorem toList_quotedName (name : String) :
    (DotStatement.quotedName name).toList = '"' :: (name.toList.flatMap quotedChar ++ ['"']) := by
  have hchars : (replaceAll "\"" "\\\"" (replaceAll "\\" "\\\\" name)).toList =
      name.toList.flatMap quotedChar := by
    rw [toList_replaceAll (c := '"') (by decide), toList_replaceAll (c := '\\') (by decide),
      List.flatMap_assoc]
    refine congrArg (name.toList.flatMap ·) (funext fun c => ?_)
    unfold quotedChar
    split
    · decide
    · simp
  simp [DotStatement.quotedName, hchars]

theorem foldlM_quotedChar (c : Char) :
    (quotedChar c).foldlM QuoteState.step? QuoteState.inside = some .inside := by
  unfold quotedChar
  split
  · rfl
  · split
    · rfl
    · next hback hquote => simp [QuoteState.step?, hback, hquote]

theorem foldlM_quotedChars (s : List Char) :
    (s.flatMap quotedChar).foldlM QuoteState.step? QuoteState.inside = some .inside := by
  induction s with
  | nil => rfl
  | cons c s ih =>
    rw [List.flatMap_cons, List.foldlM_append, foldlM_quotedChar]
    exact ih

theorem isLine_quotedName (name : String) : IsLine (DotStatement.quotedName name) := by
  rw [IsLine, toList_quotedName, List.foldlM_cons]
  change (name.toList.flatMap quotedChar ++ ['"']).foldlM QuoteState.step? QuoteState.inside = _
  rw [List.foldlM_append, foldlM_quotedChars]
  rfl

theorem readInside_quotedChar (c : Char) (rest : List Char) :
    readInside (quotedChar c ++ rest) =
      (readInside rest).map fun read => (c :: read.1, read.2) := by
  unfold quotedChar
  split
  · next hc => simp [readInside, hc]
  · split
    · next hc => simp [readInside, hc]
    · next hback hquote =>
      rw [List.singleton_append, readInside]
      · exact hquote
      · exact fun _ _ h => absurd h hback

theorem readInside_quotedChars (s rest : List Char) :
    readInside (s.flatMap quotedChar ++ '"' :: rest) = some (s, rest) := by
  induction s with
  | nil => simp [readInside]
  | cons c s ih => rw [List.flatMap_cons, List.append_assoc, readInside_quotedChar, ih]; rfl

/-- **Written names are read back**, whatever follows them. -/
theorem readName?_quotedName (name rest : String) :
    readName? (DotStatement.quotedName name ++ rest) = some (name, rest) := by
  have hstart : dropPrefix? "\"" (DotStatement.quotedName name ++ rest) =
      some (.ofList (name.toList.flatMap quotedChar ++ '"' :: rest.toList)) := by
    refine dropPrefix?_eq_some_iff.2 (String.toList_inj.1 ?_)
    simp [toList_quotedName]
  simp [readName?, hstart, readInside_quotedChars]

theorem readName?_quotedName_end (name : String) :
    readName? (DotStatement.quotedName name) = some (name, "") := by
  have h := readName?_quotedName name ""
  rwa [String.append_empty] at h

end DepGraph
