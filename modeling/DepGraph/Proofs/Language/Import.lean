/-
  DepGraph — reading one import statement.

  What a list of names means depends on its tokens only: its words, where each comma is a
  word of its own.  A statement that lists names in parentheses is read up to the last
  parenthesis, and a comment behind it is not looked at unless it holds a call.

  * `tokens`, `firstWords_eq`: the tokens of a list, and what the list names.
  * `shortestBody?_closed`: a statement ends at its last parenthesis.
  * `FromLine`, `FromLine.readImport?_text`: the statement of a line whose first word is
    `from`.
  * `calledModule?_append`: a call is not looked for beyond the last quote.
  * `findFirst_closed`: no call reaches over the end of a statement without quotes.
-/
import DepGraph.Language.Python
import DepGraph.Proofs.Text.Words

namespace DepGraph

open DepGraph.Text

/-! ## Tokens -/

/-- A text with blanks around each comma. -/
def spaced (s : List Char) : List Char := s.flatMap fun c => if c = ',' then [' ', ',', ' '] else [c]

/-- The words of a text; each comma is a word of its own. -/
def tokens (s : List Char) : List (List Char) := words (spaced s)

section
variable {s x y b w : List Char} {c : Char}

theorem spaced_append (x y : List Char) : spaced (x ++ y) = spaced x ++ spaced y :=
  List.flatMap_append

theorem spaced_of_not_mem (h : ',' ∉ s) : spaced s = s := by
  induction s with
  | nil => rfl
  | cons c rest ih =>
    rw [List.mem_cons, not_or] at h
    rw [spaced, List.flatMap_cons, if_neg (Ne.symm h.1), ← spaced, ih h.2, List.singleton_append]

theorem tokens_of_not_mem (h : ',' ∉ s) : tokens s = words s := by
  rw [tokens, spaced_of_not_mem h]

theorem tokens_comma (x y : List Char) : tokens (x ++ ',' :: y) = tokens x ++ [','] :: tokens y := by
  have hspaced : spaced (',' :: y) = ' ' :: ([','] ++ ' ' :: spaced y) := rfl
  have hcomma : words [','] = [[',']] := by decide
  rw [tokens, spaced_append, hspaced, words_append_cons (by decide), words_append_cons (by decide),
    hcomma]
  rfl

theorem tokens_append_cons (hc : isBlank c = true) (x y : List Char) :
    tokens (x ++ c :: y) = tokens x ++ tokens y := by
  have hne : c ≠ ',' := ne_of_isBlank hc rfl
  have hspaced : spaced (c :: y) = c :: spaced y := by
    rw [spaced, List.flatMap_cons, if_neg hne]
    rfl
  rw [tokens, spaced_append, hspaced, words_append_cons hc]
  rfl

theorem tokens_blanks_append (hb : ∀ c ∈ b, isBlank c = true) : tokens (b ++ s) = tokens s := by
  rw [tokens, spaced_append, spaced_of_not_mem (not_mem_of_blanks hb rfl), words_blanks_append hb]
  rfl

theorem tokens_append_blanks (hb : ∀ c ∈ b, isBlank c = true) : tokens (s ++ b) = tokens s := by
  rw [tokens, spaced_append, spaced_of_not_mem (not_mem_of_blanks hb rfl), words_append_blanks hb]
  rfl

theorem tokens_trimLeft (s : List Char) : tokens (trimLeft s) = tokens s := by
  obtain ⟨b, hb, hs⟩ := exists_trimLeft s
  conv_rhs => rw [hs]
  exact (tokens_blanks_append hb).symm

theorem tokens_trimRight (s : List Char) : tokens (trimRight s) = tokens s := by
  obtain ⟨b, hb, hs⟩ := exists_trimRight s
  conv_rhs => rw [hs]
  exact (tokens_append_blanks hb).symm

/-- Every character of a text is blank, a comma, or one of its tokens'. -/
theorem exists_mem_tokens (hc : isBlank c = false) (h : c ∈ s) : ∃ t ∈ tokens s, c ∈ t := by
  refine exists_mem_words hc (List.mem_flatMap.2 ⟨c, h, ?_⟩)
  by_cases hcomma : c = ','
  · simp [hcomma]
  · simp [hcomma]

theorem tokens_intercalate {parts : List (List Char)} (h : ∀ p ∈ parts, ',' ∉ p) :
    tokens ([','].intercalate parts) = [[',']].intercalate (parts.map words) := by
  induction parts with
  | nil => rfl
  | cons p rest ih =>
    rw [List.forall_mem_cons] at h
    cases rest with
    | nil => simpa using tokens_of_not_mem h.1
    | cons q rest =>
      have htokens := tokens_comma p ([','].intercalate (q :: rest))
      rw [ih h.2, tokens_of_not_mem h.1] at htokens
      simpa [List.intercalate_cons_cons] using htokens

/-- Between the commas stand the words of the items. -/
theorem splitOn_tokens (s : List Char) :
    (tokens s).splitOn [','] = (s.splitOn ',').map words := by
  have hparts : ∀ p ∈ s.splitOn ',', ',' ∉ p := fun p hp => not_mem_of_mem_splitOn hp
  have hwords : ∀ ws ∈ (s.splitOn ',').map words, [','] ∉ ws := by
    intro ws hws hmem
    obtain ⟨p, hp, rfl⟩ := List.mem_map.1 hws
    exact hparts p hp (mem_of_mem_words hmem ',' List.mem_cons_self).1
  have htokens := tokens_intercalate hparts
  rw [List.intercalate_splitOn] at htokens
  rw [htokens, List.splitOn_intercalate [','] hwords (by simp [List.splitOn_ne_nil])]

/-- A list names the first token of each item. -/
theorem firstWords_eq (s : List Char) :
    firstWords s = ((tokens s).splitOn [',']).filterMap List.head? := by
  rw [firstWords, segments_singleton, splitOn_tokens, List.filterMap_map]
  rfl

theorem firstWords_comma (x y : List Char) :
    firstWords (x ++ ',' :: y) = firstWords x ++ firstWords y := by
  simp only [firstWords, segments_singleton]
  rw [List.splitOn_append_cons_self, List.filterMap_append]

/-- Where a word stands before a parenthesis, the first item does not start behind it. -/
theorem firstWords_opened (hx : ',' ∉ x) (hwords : words x ≠ []) :
    firstWords (x ++ ' ' :: '(' :: s) =
      (words x).head?.toList ++ (((tokens s).splitOn [',']).tail).filterMap List.head? := by
  have hfront : ∀ c ∈ x ++ [' ', '('], c ≠ ',' := by
    intro c hc
    rw [List.mem_append] at hc
    rcases hc with hc | hc
    · rintro rfl
      exact hx hc
    · revert c
      decide
  have hsplit {p : List Char} (hp : ∀ c ∈ p, c ≠ ',') :
      (p ++ s).splitOn ',' = (s.splitOn ',').modifyHead (p ++ ·) := by
    induction p with
    | nil =>
      have hid : (fun t : List Char => [] ++ t) = id := rfl
      rw [hid, List.modifyHead_id]
      rfl
    | cons c p ih =>
      rw [List.forall_mem_cons] at hp
      rw [List.cons_append, List.splitOn_cons_eq_if_modifyHead, if_neg (by simpa using hp.1),
        ih hp.2, List.modifyHead_modifyHead]
      rfl
  obtain ⟨first, more, hs⟩ := List.exists_cons_of_ne_nil (List.splitOn_ne_nil ',' s)
  obtain ⟨w, ws, hw⟩ := List.exists_cons_of_ne_nil hwords
  have hcons : x ++ ' ' :: '(' :: s = (x ++ [' ', '(']) ++ s := by simp
  have hitem : (words (x ++ [' ', '('] ++ first)).head? = some w := by
    rw [List.append_assoc, List.cons_append, words_append_cons (by decide), hw]
    rfl
  rw [firstWords, segments_singleton, splitOn_tokens, hcons, hsplit hfront, hs,
    List.modifyHead_cons, List.filterMap_cons, hitem, hw, List.map_cons, List.tail_cons,
    List.filterMap_map]
  rfl

end

/-! ## Where a statement ends -/

section
variable {x t : List Char}

/-- What may stand behind a statement: blanks, and then a comment. -/
def IsTrailer (t : List Char) : Prop := ∀ c ∈ t.takeWhile (· != '#'), isBlank c = true

instance (t : List Char) : Decidable (IsTrailer t) :=
  inferInstanceAs (Decidable (∀ c ∈ t.takeWhile (· != '#'), isBlank c = true))

theorem endsLine_of_isTrailer (h : IsTrailer t) (hfeed : '\n' ∉ t) : endsLine t = true := by
  have ht := List.takeWhile_append_dropWhile (p := (· != '#')) (l := t)
  have hhash := List.head?_dropWhile_not (· != '#') t
  rw [IsTrailer] at h
  generalize t.takeWhile (· != '#') = b at ht h
  generalize t.dropWhile (· != '#') = comment at ht hhash
  subst ht
  cases comment with
  | nil =>
    have hskip : skipBlanks (b ++ []) = [] := by
      rw [List.append_nil]
      exact List.dropWhile_eq_nil_iff.2 h
    rw [endsLine, hskip]
  | cons c rest =>
    obtain rfl : c = '#' := by simpa using hhash
    have hskip : skipBlanks (b ++ '#' :: rest) = '#' :: rest := by
      rw [skipBlanks, List.dropWhile_append_of_pos h]
      exact List.dropWhile_cons_of_neg (by decide)
    have hbeyond : rest.dropWhile (· != '\n') = [] := by
      refine List.dropWhile_eq_nil_iff.2 fun c hc => ?_
      rw [bne_iff_ne]
      rintro rfl
      exact hfeed (by simp [hc])
    rw [endsLine, hskip]
    simp [hbeyond]

theorem endsLine_closed (h : '#' ∉ x) (t : List Char) : endsLine (x ++ ')' :: t) = false := by
  have hskip : skipBlanks (x ++ ')' :: t) = trimLeft x ++ ')' :: t := trimLeft_append x (by decide)
  have hhash : '#' ∉ trimLeft x := fun hmem => h (trimLeft_subset x hmem)
  rw [endsLine, hskip]
  cases hx : trimLeft x with
  | nil => rfl
  | cons c rest =>
    rw [hx, List.mem_cons, not_or] at hhash
    simp [Ne.symm hhash.1]

/-- A statement ends at its last parenthesis. -/
theorem shortestBody?_closed (hx : '#' ∉ x) (hx' : '\n' ∉ x) (ht : IsTrailer t)
    (hfeed : '\n' ∉ t) : shortestBody? (x ++ ')' :: t) = some (x ++ [')']) := by
  induction x with
  | nil =>
    rw [List.nil_append, shortestBody?, if_neg (by decide), if_pos (endsLine_of_isTrailer ht hfeed)]
    rfl
  | cons c x ih =>
    rw [List.mem_cons, not_or] at hx hx'
    rw [List.cons_append, shortestBody?, if_neg (by simpa using Ne.symm hx'.1),
      if_neg (by simp [endsLine_closed hx.2]), ih hx.2 hx'.2]
    rfl

theorem isSome_shortestBody? (hne : x ≠ []) (hfeed : '\n' ∉ x) : (shortestBody? x).isSome = true := by
  induction x with
  | nil => exact absurd rfl hne
  | cons c x ih =>
    rw [List.mem_cons, not_or] at hfeed
    rw [shortestBody?, if_neg (by simpa using Ne.symm hfeed.1)]
    split
    · rfl
    · next hend =>
      have hx : x ≠ [] := by
        rintro rfl
        exact hend rfl
      rw [Option.isSome_map]
      exact ih hx hfeed.2

end

/-! ## The statement of a line -/

section
variable {b w s names : List Char}

theorem run?_append {p : Char → Bool} (hne : w ≠ []) (hw : ∀ c ∈ w, p c = true)
    (hs : ∀ c ∈ s.head?, p c = false) : run? p (w ++ s) = some (w, s) := by
  have htake : (w ++ s).takeWhile p = w := by
    rw [List.takeWhile_append_of_pos hw]
    cases s with
    | nil => rw [List.takeWhile_nil, List.append_nil]
    | cons c rest => rw [List.takeWhile_cons_of_neg (by simp [hs c rfl]), List.append_nil]
  have hdrop : (w ++ s).dropWhile p = s := by
    rw [List.dropWhile_append_of_pos hw]
    cases s with
    | nil => rfl
    | cons c rest => exact List.dropWhile_cons_of_neg (by simp [hs c rfl])
  obtain ⟨c, rest, rfl⟩ := List.exists_cons_of_ne_nil hne
  rw [run?, htake, hdrop]

theorem blanks?_append (hne : b ≠ []) (hb : ∀ c ∈ b, isBlank c = true)
    (hs : ∀ c ∈ s.head?, isBlank c = false) : blanks? (b ++ s) = some s := by
  rw [blanks?, run?_append hne hb hs]
  rfl

theorem skipBlanks_append (hb : ∀ c ∈ b, isBlank c = true)
    (hs : ∀ c ∈ s.head?, isBlank c = false) : skipBlanks (b ++ s) = s := by
  rw [skipBlanks, List.dropWhile_append_of_pos hb]
  exact trimLeft_of_head hs

theorem after?_append (word : String) (s : List Char) : after? word (word.toList ++ s) = some s :=
  List.isPrefixOf?_eq_some_iff_append_eq.2 rfl

/-- The last of the places behind some blanks is where they end. -/
theorem placesAfterBlank_append (hne : b ≠ []) (hb : ∀ c ∈ b, isBlank c = true)
    (hs : ∀ c ∈ s.head?, isBlank c = false) : ∃ more, placesAfterBlank (b ++ s) = s :: more := by
  induction b with
  | nil => exact absurd rfl hne
  | cons c b ih =>
    rw [List.forall_mem_cons] at hb
    rw [List.cons_append, placesAfterBlank, if_pos hb.1]
    cases b with
    | nil =>
      cases s with
      | nil => exact ⟨[], rfl⟩
      | cons d rest =>
        have hd : isBlank d = false := hs d rfl
        exact ⟨[], by simp [placesAfterBlank, hd]⟩
    | cons d b =>
      obtain ⟨more, hmore⟩ := ih (List.cons_ne_nil d b) hb.2
      exact ⟨_, by rw [hmore]; rfl⟩

theorem importedNames?_append (hne : b ≠ []) (hb : ∀ c ∈ b, isBlank c = true)
    (hs : ∀ c ∈ s.head?, isBlank c = false) (hbody : shortestBody? s = some names) :
    importedNames? (b ++ s) = some names := by
  obtain ⟨more, hmore⟩ := placesAfterBlank_append hne hb hs
  rw [importedNames?, hmore, List.findSome?_cons, hbody]

theorem importedNames?_of_head {c : Char} (hc : isBlank c = false) (s : List Char) :
    importedNames? (c :: s) = none := by
  simp [importedNames?, placesAfterBlank, hc]

/-- Behind a longer word than `import`, no names follow. -/
theorem importedNames?_of_word (hw : ∀ c ∈ w, isBlank c = false) (hne : w ≠ "import".toList)
    (hb : b ≠ []) (hblank : ∀ c ∈ b, isBlank c = true) (s : List Char) :
    (after? "import" (w ++ (b ++ s))).bind importedNames? = none := by
  cases hafter : after? "import" (w ++ (b ++ s)) with
  | none => rfl
  | some rest =>
    have heq := List.isPrefixOf?_eq_some_iff_append_eq.1 hafter
    rw [Option.bind_some]
    rcases List.append_eq_append_iff.1 heq with ⟨more, hmore, hrest⟩ | ⟨more, hmore, hrest⟩
    · cases more with
      | nil => exact absurd (by simpa using hmore) hne
      | cons c more =>
        rw [hrest, List.cons_append]
        exact importedNames?_of_head (hw c (by simp [hmore])) _
    · -- a blank would stand within the keyword
      obtain ⟨d, b, rfl⟩ := List.exists_cons_of_ne_nil hb
      cases more with
      | nil => exact absurd (by simpa using hmore.symm) hne
      | cons c more =>
        obtain ⟨rfl, -⟩ : d = c ∧ b ++ s = more ++ rest := by simpa using hrest
        have hsolid : ∀ c ∈ "import".toList, isBlank c = false := by decide
        have hd := hsolid d (by simp [hmore])
        rw [hblank d List.mem_cons_self] at hd
        cases hd

/-- Blanks, of which there is one. -/
def IsGap (b : List Char) : Prop := b ≠ [] ∧ ∀ c ∈ b, isBlank c = true

/-- Characters that are not blank, of which there is one. -/
def IsWord (w : List Char) : Prop := w ≠ [] ∧ ∀ c ∈ w, isBlank c = false

theorem IsGap.head_append (hb : IsGap b) (s : List Char) :
    ∀ c ∈ (b ++ s).head?, (!isBlank c) = false := by
  obtain ⟨d, b, rfl⟩ := List.exists_cons_of_ne_nil hb.1
  intro c hc
  obtain rfl : d = c := by simpa using hc
  simp [hb.2 d List.mem_cons_self]

theorem IsWord.head_append (hw : IsWord w) (s : List Char) :
    ∀ c ∈ (w ++ s).head?, isBlank c = false := by
  obtain ⟨d, w, rfl⟩ := List.exists_cons_of_ne_nil hw.1
  intro c hc
  obtain rfl : d = c := by simpa using hc
  exact hw.2 d List.mem_cons_self

theorem isWord_from : IsWord "from".toList := by
  unfold IsWord
  decide

theorem isWord_import : IsWord "import".toList := by
  unfold IsWord
  decide

theorem isGap_space : IsGap [' '] := by
  unfold IsGap
  decide

end

/-- The beginning of a line whose first word is `from`, up to where its fourth word starts. -/
structure FromLine where
  front : List Char
  afterFrom : List Char
  base : List Char
  afterBase : List Char
  keyword : List Char
  afterKeyword : List Char
  front_blank : ∀ c ∈ front, isBlank c = true
  isGap_afterFrom : IsGap afterFrom
  isWord_base : IsWord base
  isGap_afterBase : IsGap afterBase
  isWord_keyword : IsWord keyword
  isGap_afterKeyword : IsGap afterKeyword

namespace FromLine

variable (f : FromLine) {s names : List Char}

/-- The line that goes on with a text. -/
def text (s : List Char) : List Char :=
  f.front ++ ("from".toList ++ (f.afterFrom ++ (f.base ++ (f.afterBase ++ (f.keyword ++
    (f.afterKeyword ++ s))))))

theorem skipBlanks_text (s : List Char) : skipBlanks (f.text s) =
    "from".toList ++ (f.afterFrom ++ (f.base ++ (f.afterBase ++ (f.keyword ++
      (f.afterKeyword ++ s))))) :=
  skipBlanks_append f.front_blank (isWord_from.head_append _)

theorem readModules?_text (s : List Char) : readModules? (f.text s) = none := by
  rw [readModules?, skipBlanks_text]
  rfl

/-- A line whose first word is `from` is a statement iff its third word is `import`. -/
theorem readMembers?_text (hs : ∀ c ∈ s.head?, isBlank c = false)
    (hbody : shortestBody? s = some names) : readMembers? (f.text s) =
      if f.keyword = "import".toList then some (.members f.base names) else none := by
  have hkeyword : keyword? "from" (f.text s) =
      some (f.base ++ (f.afterBase ++ (f.keyword ++ (f.afterKeyword ++ s)))) := by
    rw [keyword?, skipBlanks_text, after?_append, Option.bind_some]
    exact blanks?_append f.isGap_afterFrom.1 f.isGap_afterFrom.2 (f.isWord_base.head_append _)
  have hrun : run? (!isBlank ·) (f.base ++ (f.afterBase ++ (f.keyword ++ (f.afterKeyword ++ s)))) =
      some (f.base, f.afterBase ++ (f.keyword ++ (f.afterKeyword ++ s))) :=
    run?_append f.isWord_base.1 (fun c hc => by simp [f.isWord_base.2 c hc])
      (f.isGap_afterBase.head_append _)
  have hblanks : blanks? (f.afterBase ++ (f.keyword ++ (f.afterKeyword ++ s))) =
      some (f.keyword ++ (f.afterKeyword ++ s)) :=
    blanks?_append f.isGap_afterBase.1 f.isGap_afterBase.2 (f.isWord_keyword.head_append _)
  have hread : readMembers? (f.text s) =
      ((after? "import" (f.keyword ++ (f.afterKeyword ++ s))).bind importedNames?).map
        (.members f.base) := by
    simp only [readMembers?, hkeyword, bind, Option.bind_some, hrun, hblanks]
    cases after? "import" (f.keyword ++ (f.afterKeyword ++ s)) with
    | none => rfl
    | some rest => cases h : importedNames? rest <;> simp [h]
  rw [hread]
  split
  · next himport =>
    rw [himport, after?_append, Option.bind_some,
      importedNames?_append f.isGap_afterKeyword.1 f.isGap_afterKeyword.2 hs hbody]
    rfl
  · next hother =>
    rw [importedNames?_of_word f.isWord_keyword.2 hother f.isGap_afterKeyword.1
      f.isGap_afterKeyword.2]
    rfl

theorem readImport?_text (hs : ∀ c ∈ s.head?, isBlank c = false)
    (hbody : shortestBody? s = some names) : readImport? (f.text s) =
      if f.keyword = "import".toList then some (.members f.base names) else none := by
  rw [readImport?, f.readMembers?_text hs hbody, readModules?_text]
  split <;> rfl

end FromLine

/-! ## Calls -/

/-- What stands between quotes at the front of a text. -/
def quotedText? : List Char → Option (List Char)
  | quote :: c :: rest =>
    let more := rest.takeWhile fun d => d != quote && d != '\n'
    if (quote == '\'' || quote == '"') && c != '\n' &&
        (rest.drop more.length).head? == some quote then some (c :: more)
    else none
  | _ => none

/-- The argument of a call, behind the name of what is called. -/
def callArgument? (s : List Char) : Option (List Char) :=
  (after? "(" (skipBlanks s)).bind fun rest => quotedText? (skipBlanks rest)

theorem calledModule?_eq (s : List Char) :
    calledModule? s = (after? "import_module" s).bind callArgument? := rfl

/-- A text without quotes. -/
def IsQuoteFree (s : List Char) : Prop := ∀ c ∈ s, c ≠ '\'' ∧ c ≠ '"'

section
variable {x y t : List Char}

theorem isQuoteFree_iff : IsQuoteFree x ↔ '\'' ∉ x ∧ '"' ∉ x := by
  constructor
  · exact fun h => ⟨fun hmem => (h _ hmem).1 rfl, fun hmem => (h _ hmem).2 rfl⟩
  · rintro ⟨h, h'⟩ c hc
    constructor
    · rintro rfl
      exact h hc
    · rintro rfl
      exact h' hc

theorem IsQuoteFree.append (hx : IsQuoteFree x) (hy : IsQuoteFree y) : IsQuoteFree (x ++ y) :=
  List.forall_mem_append.2 ⟨hx, hy⟩

theorem IsQuoteFree.mono (hy : IsQuoteFree y) (h : x ⊆ y) : IsQuoteFree x := fun c hc => hy c (h hc)

theorem skipBlanks_append_quoteFree (hy : IsQuoteFree y) (u : List Char) :
    ∃ z, IsQuoteFree z ∧ skipBlanks (u ++ y) = skipBlanks u ++ z := by
  induction u with
  | nil => exact ⟨skipBlanks y, hy.mono (List.dropWhile_sublist isBlank).subset, rfl⟩
  | cons c u ih =>
    by_cases hc : isBlank c = true
    · obtain ⟨z, hz, hskip⟩ := ih
      refine ⟨z, hz, ?_⟩
      rw [skipBlanks] at hskip ⊢
      rw [List.cons_append, List.dropWhile_cons_of_pos hc, hskip, skipBlanks, skipBlanks,
        List.dropWhile_cons_of_pos hc]
    · refine ⟨y, hy, ?_⟩
      rw [skipBlanks, skipBlanks, List.cons_append, List.dropWhile_cons_of_neg hc,
        List.dropWhile_cons_of_neg hc, List.cons_append]

/-- What follows a word is followed by the same end, or has no quotes. -/
theorem after?_append_quoteFree (word : String) (hy : IsQuoteFree y) (u : List Char) :
    (∃ rest, after? word u = some rest ∧ after? word (u ++ y) = some (rest ++ y)) ∨
      after? word u = none ∧ ∀ rest, after? word (u ++ y) = some rest → IsQuoteFree rest := by
  cases hu : after? word u with
  | some rest =>
    have heq := List.isPrefixOf?_eq_some_iff_append_eq.1 hu
    refine .inl ⟨rest, rfl, List.isPrefixOf?_eq_some_iff_append_eq.2 ?_⟩
    rw [← List.append_assoc, heq]
  | none =>
    refine .inr ⟨rfl, fun rest hrest => ?_⟩
    have heq := List.isPrefixOf?_eq_some_iff_append_eq.1 hrest
    rcases List.append_eq_append_iff.1 heq with ⟨more, hmore, -⟩ | ⟨more, -, hmore⟩
    · have hword : after? word u = some more :=
        List.isPrefixOf?_eq_some_iff_append_eq.2 hmore.symm
      rw [hu] at hword
      cases hword
    · exact hy.mono fun c hc => by simp [hmore, hc]

theorem quotedText?_append (hy : IsQuoteFree y) (u : List Char) :
    quotedText? (u ++ y) = quotedText? u := by
  -- a quote that is not in `u` is not found in `y` either
  have hnone (q c : Char) (rest : List Char) (hrest : rest ⊆ y) (n : Nat) :
      ¬ ((q == '\'' || q == '"') && c != '\n' && (rest.drop n).head? == some q) = true := by
    intro h
    simp only [Bool.and_eq_true, Bool.or_eq_true, beq_iff_eq] at h
    have hmem := hy q (hrest (List.mem_of_mem_drop (List.mem_of_mem_head? h.2)))
    rcases h.1.1 with rfl | rfl
    · exact hmem.1 rfl
    · exact hmem.2 rfl
  match u with
  | [] =>
    match y, hnone with
    | [], _ => rfl
    | [_], _ => rfl
    | q :: c :: rest, hnone =>
      exact if_neg (hnone q c rest (fun d hd => by simp [hd]) _)
  | [q] =>
    match y, hnone with
    | [], _ => rfl
    | c :: rest, hnone => exact if_neg (hnone q c rest (fun d hd => by simp [hd]) _)
  | q :: c :: rest =>
    have hrest := List.takeWhile_append_dropWhile (p := fun d => d != q && d != '\n') (l := rest)
    have hstop := List.head?_dropWhile_not (fun d => d != q && d != '\n') rest
    have hrun : ∀ d ∈ rest.takeWhile fun d => d != q && d != '\n',
        (d != q && d != '\n') = true := fun d hd =>
      List.mem_takeWhile_imp (p := fun d => d != q && d != '\n') hd
    rw [List.cons_append, List.cons_append, quotedText?, quotedText?]
    generalize rest.takeWhile (fun d => d != q && d != '\n') = run at hrest hrun
    generalize rest.dropWhile (fun d => d != q && d != '\n') = behind at hrest hstop
    subst hrest
    cases behind with
    | nil =>
      rw [List.append_nil, List.takeWhile_append_of_pos hrun, List.length_append,
        List.drop_length_add_append, List.drop_length, if_neg (hnone q c y (List.Subset.refl y) _)]
      simp
    | cons d behind =>
      have hd : ¬ (d != q && d != '\n') = true := by simpa using hstop
      rw [List.append_assoc, List.takeWhile_append_of_pos hrun, List.cons_append,
        List.takeWhile_cons_of_neg (p := fun d => d != q && d != '\n') hd]
      simp

theorem callArgument?_append (hy : IsQuoteFree y) (u : List Char) :
    callArgument? (u ++ y) = callArgument? u := by
  obtain ⟨z, hz, hskip⟩ := skipBlanks_append_quoteFree hy u
  rw [callArgument?, callArgument?, hskip]
  rcases after?_append_quoteFree "(" hz (skipBlanks u) with ⟨rest, hrest, happend⟩ | ⟨hnone, hfree⟩
  · obtain ⟨z', hz', hskip'⟩ := skipBlanks_append_quoteFree hz rest
    rw [hrest, happend, Option.bind_some, Option.bind_some, hskip', quotedText?_append hz']
  · rw [hnone]
    cases hafter : after? "(" (skipBlanks u ++ z) with
    | none => rfl
    | some rest =>
      have hrest := (hfree rest hafter).mono (List.dropWhile_sublist isBlank).subset
      exact quotedText?_append hrest []

/-- A call is not looked for beyond the last quote. -/
theorem calledModule?_append (hy : IsQuoteFree y) (u : List Char) :
    calledModule? (u ++ y) = calledModule? u := by
  rw [calledModule?_eq, calledModule?_eq]
  rcases after?_append_quoteFree "import_module" hy u with
    ⟨rest, hrest, happend⟩ | ⟨hnone, hfree⟩
  · rw [hrest, happend, Option.bind_some, Option.bind_some, callArgument?_append hy]
  · rw [hnone]
    cases hafter : after? "import_module" (u ++ y) with
    | none => rfl
    | some rest => exact callArgument?_append (hfree rest hafter) []

theorem findFirst_cons {c : Char} {s : List Char} (h : calledModule? (c :: s) = none) :
    findFirst calledModule? (c :: s) = findFirst calledModule? s := by
  rw [findFirst, h]
  rfl

theorem findFirst_append (hy : IsQuoteFree y) (u : List Char) :
    findFirst calledModule? (u ++ y) = findFirst calledModule? u := by
  induction u with
  | nil =>
    induction y with
    | nil => rfl
    | cons c y ih =>
      have hcall : calledModule? (c :: y) = none := calledModule?_append hy []
      rw [IsQuoteFree, List.forall_mem_cons] at hy
      rw [List.nil_append, findFirst_cons hcall]
      exact ih hy.2
  | cons c u ih =>
    have hcall := calledModule?_append hy (c :: u)
    rw [List.cons_append] at hcall ⊢
    rw [findFirst, findFirst, hcall, ih]

theorem after?_closed {word : String} (hword : ')' ∉ word.toList) (x t : List Char) :
    after? word (x ++ ')' :: t) = (after? word x).map (· ++ ')' :: t) := by
  cases hx : after? word x with
  | some rest =>
    have heq := List.isPrefixOf?_eq_some_iff_append_eq.1 hx
    refine List.isPrefixOf?_eq_some_iff_append_eq.2 ?_
    rw [← List.append_assoc, heq]
  | none =>
    rw [Option.map_none, Option.eq_none_iff_forall_ne_some]
    intro rest hrest
    have heq := List.isPrefixOf?_eq_some_iff_append_eq.1 hrest
    rcases List.append_eq_append_iff.1 heq with ⟨more, hmore, -⟩ | ⟨more, hmore, hrest'⟩
    · have hsome : after? word x = some more :=
        List.isPrefixOf?_eq_some_iff_append_eq.2 hmore.symm
      rw [hx] at hsome
      cases hsome
    · cases more with
      | nil =>
        have hsome : after? word x = some [] :=
          List.isPrefixOf?_eq_some_iff_append_eq.2 (by simpa using hmore)
        rw [hx] at hsome
        cases hsome
      | cons c more =>
        obtain ⟨rfl, -⟩ : ')' = c ∧ t = more ++ rest := by simpa using hrest'
        exact hword (by simp [hmore])

/-- No call reaches over the end of a statement without quotes. -/
theorem calledModule?_closed (hx : IsQuoteFree x) (t : List Char) :
    calledModule? (x ++ ')' :: t) = none := by
  rw [calledModule?_eq, after?_closed (by decide)]
  cases hname : after? "import_module" x with
  | none => rfl
  | some rest =>
    have hrest : IsQuoteFree (trimLeft rest) := by
      rw [← List.isPrefixOf?_eq_some_iff_append_eq.1 hname] at hx
      exact hx.mono fun c hc => by simp [trimLeft_subset rest hc]
    have hskip (s : List Char) : skipBlanks (s ++ ')' :: t) = trimLeft s ++ ')' :: t :=
      trimLeft_append s (by decide)
    rw [Option.map_some, Option.bind_some, callArgument?, hskip, after?_closed (by decide)]
    cases hopen : after? "(" (trimLeft rest) with
    | none => rfl
    | some inner =>
      have hinner : IsQuoteFree (trimLeft inner) := by
        rw [← List.isPrefixOf?_eq_some_iff_append_eq.1 hopen] at hrest
        exact hrest.mono fun c hc => by simp [trimLeft_subset inner hc]
      have hend : IsQuoteFree (trimLeft inner ++ [')']) :=
        hinner.append (isQuoteFree_iff.2 (by decide))
      rw [Option.map_some, Option.bind_some, hskip]
      cases hin : trimLeft inner ++ [')'] with
      | nil => simp at hin
      | cons q more =>
        have hq := hend q (by simp [hin])
        have hcons : trimLeft inner ++ ')' :: t = q :: (more ++ t) := by
          rw [← List.cons_append, ← hin]
          simp
        rw [hcons]
        cases more ++ t with
        | nil => rfl
        | cons c rest => simp [quotedText?, hq.1, hq.2]

theorem findFirst_closed (hx : IsQuoteFree x) (ht : findFirst calledModule? t = none) :
    findFirst calledModule? (x ++ ')' :: t) = none := by
  induction x with
  | nil =>
    rw [List.nil_append, findFirst_cons (calledModule?_closed hx t)]
    exact ht
  | cons c x ih =>
    have hcall := calledModule?_closed hx t
    rw [List.cons_append] at hcall ⊢
    rw [IsQuoteFree, List.forall_mem_cons] at hx
    rw [findFirst_cons hcall]
    exact ih hx.2

end

end DepGraph
