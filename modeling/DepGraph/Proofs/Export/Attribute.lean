/-
  DepGraph — reading the values of attributes.

  The value of an attribute stands between two quotes of one kind, and references
  stand for the characters that it may not hold.  Writing a text leaves neither
  the closing quote nor a line end in it, so it is read back, whatever follows.

  * `unescaped`: a text with its references replaced.
  * `readValue?`: the value that a text starts with, and what follows it.
  * `readValue?_attributeText`: written values are read back.
  * `lineEnd_not_mem_attributeText`: they do not break lines.
-/
import DepGraph.Export.Dgml
import DepGraph.Proofs.Text.Segments

namespace DepGraph

open DepGraph.Text

/-- A text with every reference replaced by the character that it stands for. -/
def unescaped : List Char → List Char
  | '&' :: 'a' :: 'm' :: 'p' :: ';' :: rest => '&' :: unescaped rest
  | '&' :: 'l' :: 't' :: ';' :: rest => '<' :: unescaped rest
  | '&' :: 'g' :: 't' :: ';' :: rest => '>' :: unescaped rest
  | '&' :: 'q' :: 'u' :: 'o' :: 't' :: ';' :: rest => '"' :: unescaped rest
  | '&' :: '#' :: '1' :: '0' :: ';' :: rest => '\n' :: unescaped rest
  | '&' :: '#' :: '1' :: '3' :: ';' :: rest => '\r' :: unescaped rest
  | '&' :: '#' :: '9' :: ';' :: rest => '\t' :: unescaped rest
  | c :: rest => c :: unescaped rest
  | [] => []

/-- The value of an attribute: the text between two quotes of one kind, and what
  follows the second one. -/
def readValue? (s : String) : Option (String × String) :=
  match s.toList with
  | [] => none
  | quote :: rest =>
    if quote = '"' ∨ quote = '\'' then
      match rest.dropWhile (· ≠ quote) with
      | [] => none
      | _ :: after =>
        some (.ofList (unescaped (rest.takeWhile (· ≠ quote))), .ofList after)
    else none

/-! ## Characters -/

theorem unescaped_cons {c : Char} (h : c ≠ '&') (rest : List Char) :
    unescaped (c :: rest) = c :: unescaped rest := by
  rw [unescaped]
  all_goals simp_all

theorem unescaped_attributeChar (c : Char) (rest : List Char) :
    unescaped ((attributeChar c).toList ++ rest) = c :: unescaped rest := by
  unfold attributeChar
  split
  · simp [unescaped]
  · simp [unescaped]
  · simp [unescaped]
  · simp [unescaped]
  · simp [unescaped]
  · simp [unescaped]
  · next hamp _ _ _ _ _ =>
    rw [String.toList_singleton, List.singleton_append]
    exact unescaped_cons hamp rest

/-- What is read back for each character is read back for a text. -/
theorem unescaped_flatMap {write : Char → List Char}
    (h : ∀ c rest, unescaped (write c ++ rest) = c :: unescaped rest) (s : List Char) :
    unescaped (s.flatMap write) = s := by
  induction s with
  | nil => rfl
  | cons c rest ih => rw [List.flatMap_cons, h, ih]

/-- A character that no reference holds is written for itself only. -/
theorem eq_of_mem_attributeChar {c x : Char} (hx : x ∉ "&ampltg#1039;".toList)
    (h : x ∈ (attributeChar c).toList) : x = c := by
  unfold attributeChar at h
  split at h <;> simp_all

theorem lineEnd_not_mem_attributeChar {x : Char} (hx : x = '\n' ∨ x = '\r') (c : Char) :
    x ∉ (attributeChar c).toList := by
  intro h
  obtain rfl := eq_of_mem_attributeChar (by rcases hx with rfl | rfl <;> decide) h
  rcases hx with rfl | rfl
  · exact absurd h (by decide)
  · exact absurd h (by decide)

/-! ## Values -/

theorem toList_escapedText (s : String) :
    (escapedText s).toList = s.toList.flatMap fun c => (attributeChar c).toList := by
  rw [escapedText, String.toList_join, List.flatMap_map]

/-- A character of a text between double quotes. -/
def doubleQuotedChar (c : Char) : List Char :=
  if c = '"' then "&quot;".toList else (attributeChar c).toList

theorem toList_replaceAll_escapedText (s : String) :
    (replaceAll "\"" "&quot;" (escapedText s)).toList = s.toList.flatMap doubleQuotedChar := by
  rw [toList_replaceAll (c := '"') (by decide), toList_escapedText, List.flatMap_assoc]
  refine congrArg (s.toList.flatMap ·) (funext fun c => ?_)
  unfold doubleQuotedChar
  by_cases hc : c = '"'
  · subst hc
    decide
  · -- no other character is written with a quote
    rw [if_neg hc]
    have hnot : ∀ x ∈ (attributeChar c).toList, x ≠ '"' := by
      rintro x hx rfl
      exact hc (eq_of_mem_attributeChar (by decide) hx).symm
    calc (attributeChar c).toList.flatMap (fun x => if x = '"' then "&quot;".toList else [x])
        = (attributeChar c).toList.flatMap fun x => [x] :=
          List.flatMap_congr fun x hx => if_neg (hnot x hx)
      _ = (attributeChar c).toList := List.flatMap_singleton' _

/-- A text without quotes and characters that markup would change is written as it is. -/
theorem attributeText_of_plain {s : String}
    (h : s.toList.all (fun c => c ∉ "&<>\"\n\r\t".toList) = true) :
    attributeText s = "\"" ++ s ++ "\"" := by
  have hplain : ∀ c ∈ s.toList, c ∉ "&<>\"\n\r\t".toList :=
    fun c hc => of_decide_eq_true (List.all_eq_true.1 h c hc)
  have hquote : '"' ∉ s.toList := fun hmem => hplain _ hmem (by decide)
  have hescaped : escapedText s = s := by
    rw [← String.toList_inj, toList_escapedText]
    calc s.toList.flatMap (fun c => (attributeChar c).toList)
        = s.toList.flatMap fun c => [c] := List.flatMap_congr fun c hc => by
          have hc := hplain c hc
          unfold attributeChar
          split <;> simp_all
      _ = s.toList := List.flatMap_singleton' _
  simp only [attributeText, hescaped, String.contains_char_eq]
  rw [if_pos (by simp [hquote])]

theorem readValue?_quoted {quote : Char} {value : List Char} (hquote : quote = '"' ∨ quote = '\'')
    (hvalue : quote ∉ value) {s : String} (rest : String)
    (hs : s.toList = quote :: (value ++ quote :: rest.toList)) :
    readValue? s = some (.ofList (unescaped value), rest) := by
  have hall : ∀ x ∈ value, decide (x ≠ quote) = true := by
    intro x hx
    exact decide_eq_true fun heq => hvalue (heq ▸ hx)
  have htake : (value ++ quote :: rest.toList).takeWhile (fun x => decide (x ≠ quote)) = value := by
    rw [List.takeWhile_append_of_pos hall]
    simp
  have hdrop : (value ++ quote :: rest.toList).dropWhile (fun x => decide (x ≠ quote)) =
      quote :: rest.toList := by
    rw [List.dropWhile_append_of_pos hall]
    simp
  rw [readValue?, hs]
  simp only [if_pos hquote, htake, hdrop, String.ofList_toList]

/-- **Written values are read back**, whatever follows them. -/
theorem readValue?_attributeText (s rest : String) :
    readValue? (attributeText s ++ rest) = some (s, rest) := by
  have hescaped : String.ofList (unescaped (escapedText s).toList) = s := by
    rw [toList_escapedText, unescaped_flatMap unescaped_attributeChar, String.ofList_toList]
  have hnot : ∀ quote : Char, quote ∉ "&ampltg#1039;".toList → quote ∉ s.toList →
      quote ∉ (escapedText s).toList := by
    intro quote hquote hs hmem
    rw [toList_escapedText] at hmem
    obtain ⟨c, hc, hmem⟩ := List.mem_flatMap.1 hmem
    exact hs (eq_of_mem_attributeChar hquote hmem ▸ hc)
  unfold attributeText
  simp only [String.contains_char_eq]
  split
  · next hdouble =>
    rw [readValue?_quoted (.inl rfl) (hnot '"' (by decide) (by simpa using hdouble)) rest
      (by simp), hescaped]
  · split
    · have hvalue : '"' ∉ s.toList.flatMap doubleQuotedChar := by
        intro hmem
        obtain ⟨c, -, hmem⟩ := List.mem_flatMap.1 hmem
        unfold doubleQuotedChar at hmem
        split at hmem
        · exact absurd hmem (by decide)
        · next hc => exact hc (eq_of_mem_attributeChar (by decide) hmem).symm
      have hread : unescaped (s.toList.flatMap doubleQuotedChar) = s.toList := by
        refine unescaped_flatMap (fun c rest => ?_) _
        unfold doubleQuotedChar
        split
        · next hc => subst hc; simp [unescaped]
        · exact unescaped_attributeChar c rest
      rw [readValue?_quoted (.inl rfl) hvalue rest (by simp [toList_replaceAll_escapedText]), hread,
        String.ofList_toList]
    · next hsingle =>
      rw [readValue?_quoted (.inr rfl) (hnot '\'' (by decide) (by simpa using hsingle)) rest
        (by simp), hescaped]

theorem lineEnd_not_mem_attributeText {x : Char} (hx : x = '\n' ∨ x = '\r') (s : String) :
    x ∉ (attributeText s).toList := by
  have hescaped : x ∉ (escapedText s).toList := by
    rw [toList_escapedText, List.mem_flatMap]
    rintro ⟨c, -, h⟩
    exact lineEnd_not_mem_attributeChar hx c h
  have hdouble : x ∉ s.toList.flatMap doubleQuotedChar := by
    rw [List.mem_flatMap]
    rintro ⟨c, -, h⟩
    unfold doubleQuotedChar at h
    split at h
    · rcases hx with rfl | rfl
      · exact absurd h (by decide)
      · exact absurd h (by decide)
    · exact lineEnd_not_mem_attributeChar hx c h
  have hquotes : x ≠ '"' ∧ x ≠ '\'' := by rcases hx with rfl | rfl <;> decide
  unfold attributeText
  simp only [apply_ite String.toList, String.toList_append, toList_replaceAll_escapedText]
  split
  · simp [hescaped, hquotes]
  · split
    · simp [hdouble, hquotes]
    · simp [hescaped, hquotes]

end DepGraph
