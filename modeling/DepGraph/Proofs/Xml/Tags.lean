/-
  DepGraph — reading tags.

  What a reader makes of the attributes of a tag and of an element without children, if
  their values are written as `attributeText` writes them.

  * `run_name`, `run_reference`: names, and references in values.
  * `run_attributeText`: a value is read as the text that was written.
  * `written`, `run_written`: attributes.
  * `run_startTag`, `run_emptyElement`: tags.
-/
import DepGraph.Proofs.Export.Attribute
import DepGraph.Proofs.Xml.Reader

namespace DepGraph.Xml

open DepGraph.Text

/-! ## Characters of names -/

/-- The characters of names come after white space, and two that are not legal are not
  among them. -/
theorem toNat_of_isNameChar {c : Char} (h : isNameChar c = true) :
    45 ≤ c.toNat ∧ c.toNat ≠ 0xFFFE ∧ c.toNat ≠ 0xFFFF := by
  have hranges : ∀ r ∈ nameStartRanges ++ nameRanges, 45 ≤ r.1 ∧
      (r.2 < 0xFFFE ∨ 0xFFFF < r.1) := by decide
  obtain ⟨r, hr, hc⟩ : ∃ r ∈ nameStartRanges ++ nameRanges, r.1 ≤ c.toNat ∧ c.toNat ≤ r.2 := by
    simpa [isNameChar, isNameStart, isWithin, or_and_right, exists_or] using h
  have hr := hranges r hr
  omega

theorem isLegal_of_isNameChar {c : Char} (h : isNameChar c = true) : isLegal c = true := by
  obtain ⟨hlow, hne, hne'⟩ := toNat_of_isNameChar h
  have hspace : ' ' ≤ c := by
    rw [Char.le_def, UInt32.le_iff_toNat_le]
    exact Nat.le_trans (by decide) hlow
  have hfffe : c ≠ '\uFFFE' := fun heq => hne (heq ▸ rfl)
  have hffff : c ≠ '\uFFFF' := fun heq => hne' (heq ▸ rfl)
  simp [isLegal, hspace, hfffe, hffff]

theorem isSpace_of_isNameChar {c : Char} (h : isNameChar c = true) : isSpace c = false := by
  have hlow := (toNat_of_isNameChar h).1
  have hne (d : Char) (hd : d.toNat < 45) : c ≠ d := by
    rintro rfl
    omega
  simp [isSpace, hne ' ' (by decide), hne '\t' (by decide), hne '\n' (by decide),
    hne '\r' (by decide)]

theorem isNameChar_of_isNameStart {c : Char} (h : isNameStart c = true) : isNameChar c = true := by
  rw [isNameChar, h, Bool.true_or]

/-- A name. -/
def isName (s : String) : Bool :=
  match s.toList with
  | [] => false
  | c :: rest => isNameStart c && rest.all isNameChar

theorem exists_of_isName {s : String} (h : isName s = true) :
    ∃ c rest, s.toList = c :: rest ∧ isNameStart c = true ∧ ∀ d ∈ rest, isNameChar d = true := by
  unfold isName at h
  split at h
  · cases h
  · next c rest hs =>
    rw [Bool.and_eq_true, List.all_eq_true] at h
    exact ⟨c, rest, hs, h⟩

namespace Reader

theorem step_of_isLegal (r : Reader) {c : Char} (hc : isLegal c = true) :
    r.step c = r.stepLegal c := if_pos hc

section
variable {frames : List Frame} {root : Option Node}

/-! ## Names -/

/-- A name goes on as long as there are characters of names. -/
theorem run_name {of : Named} {s : List Char} (hs : ∀ c ∈ s, isNameChar c = true)
    (text : List Char) :
    run ⟨.name of text, frames, root⟩ s = some ⟨.name of (s.reverse ++ text), frames, root⟩ := by
  induction s generalizing text with
  | nil => rfl
  | cons c rest ih =>
    obtain ⟨hc, hrest⟩ := List.forall_mem_cons.1 hs
    have hstep : step ⟨.name of text, frames, root⟩ c =
        some ⟨.name of (c :: text), frames, root⟩ := by
      rw [step_of_isLegal _ (isLegal_of_isNameChar hc)]
      exact if_pos hc
    rw [run_cons_of_step hstep, ih hrest, List.reverse_cons, List.append_assoc,
      List.singleton_append]

/-- A name ends at a character of another kind. -/
theorem step_name {of : Named} {name : String} {c : Char} (hc : isLegal c = true)
    (hname : ¬ isNameChar c = true) :
    step ⟨.name of name.toList.reverse, frames, root⟩ c =
      stepNamed ⟨.name of name.toList.reverse, frames, root⟩ of name c := by
  rw [step_of_isLegal _ hc]
  refine (if_neg hname).trans ?_
  rw [List.reverse_reverse, String.ofList_toList]

/-- A name is read from where its first character starts a name. -/
theorem run_isName {r : Reader} {of : Named} {name : String} (hname : isName name = true)
    (hfirst : ∀ c, isNameStart c = true → r.step c = some ⟨.name of [c], frames, root⟩) :
    r.run name.toList = some ⟨.name of name.toList.reverse, frames, root⟩ := by
  obtain ⟨c, rest, htext, hc, hrest⟩ := exists_of_isName hname
  rw [htext, run_cons_of_step (hfirst c hc), run_name hrest, List.reverse_cons]

/-! ## Values -/

section
variable {t : Tag} {name : String} {quote : Char}

theorem run_valueReference {reference text : List Char}
    (h : reference.all (fun c => isLegal c && c != ';') = true) (before : List Char) :
    run ⟨.valueReference t name quote text before, frames, root⟩ reference =
      some ⟨.valueReference t name quote text (reference.reverse ++ before), frames, root⟩ := by
  induction reference generalizing before with
  | nil => rfl
  | cons c rest ih =>
    simp only [List.all_cons, Bool.and_eq_true, bne_iff_ne] at h
    obtain ⟨⟨hc, hne⟩, hrest⟩ := h
    have hstep : step ⟨.valueReference t name quote text before, frames, root⟩ c =
        some ⟨.valueReference t name quote text (c :: before), frames, root⟩ := by
      rw [step_of_isLegal _ hc]
      exact if_neg hne
    rw [run_cons_of_step hstep, ih hrest, List.reverse_cons, List.append_assoc,
      List.singleton_append]

variable (helement : t.head ≠ .declaration)
include helement

/-- A reference is read as what it stands for. -/
theorem run_reference (reference : List Char) {d : Char} (hquote : quote ≠ '&')
    (h : reference.all (fun c => isLegal c && c != ';') = true)
    (hd : referenced? reference = some d) (text : List Char) :
    run ⟨.value t name quote text, frames, root⟩ ('&' :: (reference ++ [';'])) =
      some ⟨.value t name quote (d :: text), frames, root⟩ := by
  have hopen : step ⟨.value t name quote text, frames, root⟩ '&' =
      some ⟨.valueReference t name quote text [], frames, root⟩ := by
    rw [step_of_isLegal _ (by decide)]
    exact (if_neg (Ne.symm hquote)).trans (if_neg helement)
  have hclose : step ⟨.valueReference t name quote text reference.reverse, frames, root⟩ ';' =
      some ⟨.value t name quote (d :: text), frames, root⟩ := by
    rw [step_of_isLegal _ (by decide)]
    simp only [stepLegal, if_pos, List.reverse_reverse, hd, Option.map_some]
  rw [run_cons_of_step hopen, run_append_of_run (run_valueReference h []), List.append_nil,
    run_cons_of_step hclose, run_nil]

/-- What is written for a character is read as the character. -/
theorem run_attributeChar {c : Char} (hquote : quote ≠ '&') (hc : isLegal c = true)
    (hne : c ≠ quote) (text : List Char) :
    run ⟨.value t name quote text, frames, root⟩ (attributeChar c).toList =
      some ⟨.value t name quote (c :: text), frames, root⟩ := by
  unfold attributeChar
  split
  · exact run_reference helement "amp".toList hquote (by decide) rfl text
  · exact run_reference helement "lt".toList hquote (by decide) rfl text
  · exact run_reference helement "gt".toList hquote (by decide) rfl text
  · exact run_reference helement "#10".toList hquote (by decide) rfl text
  · exact run_reference helement "#13".toList hquote (by decide) rfl text
  · exact run_reference helement "#9".toList hquote (by decide) rfl text
  · next hamp hless _ hfeed hreturn htab =>
    -- the white space that is left is a space
    have hspace : (if isSpace c then ' ' else c) = c := by
      split
      · next h =>
        simp only [isSpace, Bool.or_eq_true, beq_iff_eq] at h
        rcases h with ((h | h) | h) | h
        · exact h.symm
        · exact absurd h htab
        · exact absurd h hfeed
        · exact absurd h hreturn
      · rfl
    have hstep : step ⟨.value t name quote text, frames, root⟩ c =
        some ⟨.value t name quote (c :: text), frames, root⟩ := by
      rw [step_of_isLegal _ hc]
      simp only [stepLegal, stepValue]
      rw [if_neg hne, if_neg hless, if_neg hamp, hspace]
    rw [String.toList_singleton, run_cons_of_step hstep, run_nil]

theorem run_doubleQuotedChar {c : Char} (hc : isLegal c = true) (text : List Char) :
    run ⟨.value t name '"' text, frames, root⟩ (doubleQuotedChar c) =
      some ⟨.value t name '"' (c :: text), frames, root⟩ := by
  unfold doubleQuotedChar
  split
  · next heq =>
    rw [heq]
    exact run_reference helement "quot".toList (by decide) (by decide) rfl text
  · next hne => exact run_attributeChar helement (by decide) hc hne text

omit helement in
/-- What is read for each character is read for a text. -/
theorem run_flatMap {write : Char → List Char} {s : List Char}
    (h : ∀ c ∈ s, ∀ text, run ⟨.value t name quote text, frames, root⟩ (write c) =
      some ⟨.value t name quote (c :: text), frames, root⟩) (text : List Char) :
    run ⟨.value t name quote text, frames, root⟩ (s.flatMap write) =
      some ⟨.value t name quote (s.reverse ++ text), frames, root⟩ := by
  induction s generalizing text with
  | nil => rfl
  | cons c rest ih =>
    obtain ⟨hc, hrest⟩ := List.forall_mem_cons.1 h
    rw [List.flatMap_cons, run_append_of_run (hc text), ih hrest, List.reverse_cons,
      List.append_assoc, List.singleton_append]

omit helement in
/-- A value that is written between two quotes, character by character. -/
theorem run_quoted {write : Char → List Char} {s : String} (hquote : quote = '"' ∨ quote = '\'')
    (hnew : name ∉ t.attributes.map Prod.fst)
    (h : ∀ c ∈ s.toList, ∀ text, run ⟨.value t name quote text, frames, root⟩ (write c) =
      some ⟨.value t name quote (c :: text), frames, root⟩) :
    run ⟨.quote t name, frames, root⟩ (quote :: (s.toList.flatMap write ++ [quote])) =
      some ⟨.tag { t with attributes := t.attributes ++ [(name, s)] } false, frames, root⟩ := by
  have hlegal : isLegal quote = true := by rcases hquote with rfl | rfl <;> decide
  have hspace : ¬ isSpace quote = true := by rcases hquote with rfl | rfl <;> decide
  have hopen : step ⟨.quote t name, frames, root⟩ quote =
      some ⟨.value t name quote [], frames, root⟩ := by
    rw [step_of_isLegal _ hlegal]
    exact (if_neg hspace).trans (if_pos hquote)
  have hclose : step ⟨.value t name quote (s.toList.reverse ++ []), frames, root⟩ quote =
      some ⟨.tag { t with attributes := t.attributes ++ [(name, s)] } false, frames, root⟩ := by
    rw [step_of_isLegal _ hlegal]
    refine (if_pos rfl).trans ((if_neg hnew).trans ?_)
    rw [List.append_nil, List.reverse_reverse, String.ofList_toList]
  rw [run_cons_of_step hopen, run_append_of_run (run_flatMap h []), run_cons_of_step hclose,
    run_nil]

/-- **A value is read as the text that was written.** -/
theorem run_attributeText {s : String} (hnew : name ∉ t.attributes.map Prod.fst)
    (hs : IsLegalText s) :
    run ⟨.quote t name, frames, root⟩ (attributeText s).toList =
      some ⟨.tag { t with attributes := t.attributes ++ [(name, s)] } false, frames, root⟩ := by
  have hescaped {quote : Char} (hquote : quote = '"' ∨ quote = '\'') (hnot : quote ∉ s.toList) :
      run ⟨.quote t name, frames, root⟩ (quote :: ((escapedText s).toList ++ [quote])) =
        some ⟨.tag { t with attributes := t.attributes ++ [(name, s)] } false, frames, root⟩ := by
    rw [toList_escapedText]
    exact run_quoted hquote hnew fun c hc => run_attributeChar helement
      (by rcases hquote with rfl | rfl <;> decide) (hs c hc) fun heq => hnot (heq ▸ hc)
  unfold attributeText
  simp only [String.contains_char_eq]
  split
  · next hdouble => simpa using hescaped (.inl rfl) (by simpa using hdouble)
  · split
    · have hdouble : run ⟨.quote t name, frames, root⟩
          ('"' :: (s.toList.flatMap doubleQuotedChar ++ ['"'])) =
          some ⟨.tag { t with attributes := t.attributes ++ [(name, s)] } false, frames, root⟩ :=
        run_quoted (.inl rfl) hnew fun c hc => run_doubleQuotedChar helement (hs c hc)
      simpa [toList_replaceAll_escapedText] using hdouble
    · next hsingle => simpa using hescaped (.inr rfl) (by simpa using hsingle)

end

/-! ## Attributes -/

/-- Attributes as they are written. -/
def written (attributes : List (String × String)) : List Char :=
  attributes.flatMap fun a => ' ' :: (a.1.toList ++ '=' :: (attributeText a.2).toList)

section
variable {t : Tag} (helement : t.head ≠ .declaration)
include helement

theorem run_attribute {name value : String} (spaced : Bool) (hname : isName name = true)
    (hnew : name ∉ t.attributes.map Prod.fst) (hvalue : IsLegalText value) :
    run ⟨.tag t spaced, frames, root⟩
        (' ' :: (name.toList ++ '=' :: (attributeText value).toList)) =
      some ⟨.tag { t with attributes := t.attributes ++ [(name, value)] } false, frames, root⟩ := by
  have hspace : step ⟨.tag t spaced, frames, root⟩ ' ' = some ⟨.tag t true, frames, root⟩ := rfl
  have hread : run ⟨.tag t true, frames, root⟩ name.toList =
      some ⟨.name (.attribute t) name.toList.reverse, frames, root⟩ := by
    refine run_isName hname fun c hc => ?_
    have hnamed := isNameChar_of_isNameStart hc
    rw [step_of_isLegal _ (isLegal_of_isNameChar hnamed)]
    exact (if_neg (by simp [isSpace_of_isNameChar hnamed])).trans (if_pos hc)
  have hequals : step ⟨.name (.attribute t) name.toList.reverse, frames, root⟩ '=' =
      some ⟨.quote t name, frames, root⟩ := step_name (by decide) (by decide)
  rw [run_cons_of_step hspace, run_append_of_run hread, run_cons_of_step hequals]
  exact run_attributeText helement hnew hvalue

end

/-- Attributes with different names are read as they were written. -/
theorem run_written {name : String} {attributes before : List (String × String)} (spaced : Bool)
    (hnames : ∀ a ∈ attributes, isName a.1 = true)
    (hnodup : ((before ++ attributes).map Prod.fst).Nodup)
    (hvalues : ∀ a ∈ attributes, IsLegalText a.2) :
    ∃ spaced', run ⟨.tag ⟨.element name, before⟩ spaced, frames, root⟩ (written attributes) =
      some ⟨.tag ⟨.element name, before ++ attributes⟩ spaced', frames, root⟩ := by
  induction attributes generalizing before spaced with
  | nil => exact ⟨spaced, by rw [List.append_nil]; rfl⟩
  | cons a rest ih =>
    obtain ⟨hname, hnames⟩ := List.forall_mem_cons.1 hnames
    obtain ⟨hvalue, hvalues⟩ := List.forall_mem_cons.1 hvalues
    have hnew : a.1 ∉ before.map Prod.fst := by
      rw [List.map_append, List.nodup_append] at hnodup
      exact fun hmem => hnodup.2.2 _ hmem _ List.mem_cons_self rfl
    have helement : (⟨.element name, before⟩ : Tag).head ≠ .declaration := by simp
    have hrest : ((before ++ [a] ++ rest).map Prod.fst).Nodup := by simpa using hnodup
    obtain ⟨spaced', hrun⟩ := ih false hnames hrest hvalues
    refine ⟨spaced', (run_append_of_run (run_attribute helement spaced hname hnew hvalue)).trans ?_⟩
    rwa [List.append_assoc, List.singleton_append] at hrun

/-! ## Tags -/

/-- What may follow the name in a tag ends the name. -/
theorem run_startName {name : String} {c : Char} (hc : c = ' ' ∨ c = '/' ∨ c = '>')
    (s : List Char) :
    run ⟨.name .start name.toList.reverse, frames, root⟩ (c :: s) =
      run ⟨.tag ⟨.element name, []⟩ false, frames, root⟩ (c :: s) := by
  have hlegal : isLegal c = true := by rcases hc with rfl | rfl | rfl <;> decide
  have hname : ¬ isNameChar c = true := by rcases hc with rfl | rfl | rfl <;> decide
  rw [run_cons, step_name hlegal hname, run_cons, step_of_isLegal _ hlegal]
  rfl

section
variable {name : String} {attributes : List (String × String)} (hname : isName name = true)
  (hnames : ∀ a ∈ attributes, isName a.1 = true) (hnodup : (attributes.map Prod.fst).Nodup)
  (hvalues : ∀ a ∈ attributes, IsLegalText a.2)
include hname hnames hnodup hvalues

/-- The name and the attributes of a tag, before its end. -/
theorem run_tag {c : Char} (hc : c = ' ' ∨ c = '/' ∨ c = '>') (s : List Char) :
    ∃ spaced, run ⟨.markup false, frames, root⟩ (name.toList ++ (written attributes ++ c :: s)) =
      run ⟨.tag ⟨.element name, attributes⟩ spaced, frames, root⟩ (c :: s) := by
  have hread : run ⟨.markup false, frames, root⟩ name.toList =
      some ⟨.name .start name.toList.reverse, frames, root⟩ := by
    refine run_isName hname fun d hd => ?_
    have hslash : d ≠ '/' := by rintro rfl; exact absurd hd (by decide)
    have hquestion : d ≠ '?' := by rintro rfl; exact absurd hd (by decide)
    rw [step_of_isLegal _ (isLegal_of_isNameChar (isNameChar_of_isNameStart hd))]
    exact (if_neg hslash).trans ((if_neg hquestion).trans (if_pos hd))
  obtain ⟨e, more, hmore, he⟩ : ∃ e more, written attributes ++ c :: s = e :: more ∧
      (e = ' ' ∨ e = '/' ∨ e = '>') := by
    cases attributes with
    | nil => exact ⟨c, s, rfl, hc⟩
    | cons a rest => exact ⟨' ', _, rfl, .inl rfl⟩
  obtain ⟨spaced, htag⟩ : ∃ spaced, run ⟨.tag ⟨.element name, []⟩ false, frames, root⟩
      (written attributes) = some ⟨.tag ⟨.element name, attributes⟩ spaced, frames, root⟩ :=
    run_written false hnames hnodup hvalues
  refine ⟨spaced, ?_⟩
  rw [run_append_of_run hread, hmore, run_startName he, ← hmore, run_append_of_run htag]

/-- **A start tag opens its element.** -/
theorem run_startTag :
    run ⟨.markup false, frames, root⟩ (name.toList ++ (written attributes ++ ['>'])) =
      some ⟨.content [] 0, ⟨name, attributes, []⟩ :: frames, root⟩ := by
  have hend : '>' = ' ' ∨ '>' = '/' ∨ '>' = '>' := by decide
  obtain ⟨spaced, htag⟩ := run_tag hname hnames hnodup hvalues hend []
  rw [htag]
  rfl

/-- **An element without children is read as it was written**, with or without white
  space before its end. -/
theorem run_emptyElement {f : Frame} {ending : String} (hending : ending = "/>" ∨ ending = " />") :
    run ⟨.markup false, f :: frames, root⟩ (name.toList ++ (written attributes ++ ending.toList)) =
      some ⟨.content [] 0,
        { f with children := .element name attributes [] :: f.children } :: frames, root⟩ := by
  rcases hending with rfl | rfl
  · have hend : '/' = ' ' ∨ '/' = '/' ∨ '/' = '>' := by decide
    obtain ⟨spaced, htag⟩ := run_tag hname hnames hnodup hvalues hend ['>']
    exact htag
  · have hend : ' ' = ' ' ∨ ' ' = '/' ∨ ' ' = '>' := by decide
    obtain ⟨spaced, htag⟩ := run_tag hname hnames hnodup hvalues hend ['/', '>']
    exact htag

end

end

end Reader

end DepGraph.Xml
