/-
  DepGraph — statements that import a list in parentheses.

  Such a statement is read where it stands for itself, and where an earlier list was never
  closed, so that it is taken for a part of that list.  Both times what the line refers to
  depends on the names that are listed, and not on how they are written.

  * `ListImport`: a statement; `ListImport.targets`: what it refers to.
  * `ListImport.Lists`: the texts that list its names.
  * `dropParentheses_eq`: the list that is left without its parentheses.
  * `ListImport.importTargets_closed`: the statement for itself.
  * `ListImport.exists_fromLine`: where the names start behind a list that is open.
  * `ListImport.importTargets_within`: the statement behind such a list.
-/
import DepGraph.Proofs.Language.Import

namespace DepGraph

open DepGraph.Text

/-! ## Statements -/

/-- A character of a name: it neither ends the name nor the list, and opens no text or comment. -/
def isImportChar (c : Char) : Bool :=
  !isBlank c && !(c == ',' || c == '(' || c == ')' || c == '#' || c == '\'' || c == '"')

/-- A name, or a module with its leading dots. -/
structure ImportWord where
  text : List Char
  ne_nil : text ≠ []
  plain : ∀ c ∈ text, isImportChar c = true

/-- A name that is imported, and what it is called instead. -/
structure ImportedName where
  name : ImportWord
  alias? : Option ImportWord

/-- The words by which a name is imported. -/
def ImportedName.words (n : ImportedName) : List (List Char) :=
  n.name.text :: match n.alias? with
    | none => []
    | some a => ["as".toList, a.text]

/-- A statement that imports names, which stand in parentheses. -/
structure ListImport where
  indent : List Char
  indent_blank : ∀ c ∈ indent, isBlank c = true
  base : ImportWord
  names : List ImportedName
  names_ne_nil : names ≠ []

namespace ListImport

variable (st : ListImport)

/-- The statement up to its list, without indentation. -/
def opening : List Char := "from ".toList ++ (st.base.text ++ " import (".toList)

/-- The names, with commas between them. -/
def list : List Char := [',', ' '].intercalate (st.names.map fun n => [' '].intercalate n.words)

/-- The tokens of the list. -/
def tokens : List (List Char) := [[',']].intercalate (st.names.map ImportedName.words)

/-- The modules that the statement refers to: the members of a package, or the module that
  defines the names. -/
def targets : List (List Char) :=
  if st.base.text.all (· == '.') then
    ((st.names.map (·.name.text)).filter (· != ['*'])).map (st.base.text ++ ·)
  else [st.base.text]

/-- A text lists the names of a statement, perhaps with a comma behind the last one. -/
def Lists (s : List Char) : Prop := DepGraph.tokens s = st.tokens ∨
  DepGraph.tokens s = st.tokens ++ [[',']]

instance (s : List Char) : Decidable (st.Lists s) := inferInstanceAs (Decidable (_ ∨ _))

end ListImport

theorem solid_of_isImportChar {c : Char} (h : isImportChar c = true) : isBlank c = false := by
  rw [isImportChar, Bool.and_eq_true, Bool.not_eq_true'] at h
  exact h.1

theorem ImportWord.isWord (w : ImportWord) : IsWord w.text :=
  ⟨w.ne_nil, fun c hc => solid_of_isImportChar (w.plain c hc)⟩

theorem ImportWord.not_mem (w : ImportWord) {c : Char} (hc : isImportChar c = false) :
    c ∉ w.text := by
  intro hmem
  rw [w.plain c hmem] at hc
  cases hc

/-- The words of an imported name are made of name characters. -/
theorem ImportedName.plain_words (n : ImportedName) :
    ∀ w ∈ n.words, w ≠ [] ∧ ∀ c ∈ w, isImportChar c = true := by
  have has : "as".toList ≠ [] ∧ ∀ c ∈ "as".toList, isImportChar c = true := by decide
  rw [words, List.forall_mem_cons]
  refine ⟨⟨n.name.ne_nil, n.name.plain⟩, ?_⟩
  cases n.alias? with
  | none => simp
  | some a => exact List.forall_mem_cons.2 ⟨has, by simpa [a.ne_nil] using a.plain⟩

namespace ListImport

variable {st : ListImport} {s : List Char}

theorem comma_not_mem_words : ∀ ws ∈ st.names.map ImportedName.words, [','] ∉ ws := by
  intro ws hws hmem
  obtain ⟨n, -, rfl⟩ := List.mem_map.1 hws
  have hcomma := (n.plain_words _ hmem).2 ',' List.mem_cons_self
  cases hcomma

theorem splitOn_tokens : st.tokens.splitOn [','] = st.names.map ImportedName.words :=
  List.splitOn_intercalate [','] comma_not_mem_words (by simpa using st.names_ne_nil)

/-- The items of a list are those of the statement; a comma at the end opens one without
  words. -/
theorem Lists.splitOn (h : st.Lists s) : ∃ e, (e = [] ∨ e = [[]]) ∧
    (DepGraph.tokens s).splitOn [','] = st.names.map ImportedName.words ++ e := by
  rcases h with h | h
  · exact ⟨[], .inl rfl, by rw [h, splitOn_tokens, List.append_nil]⟩
  · refine ⟨[[]], .inr rfl, ?_⟩
    rw [h, List.splitOn_append_cons_self, splitOn_tokens]
    rfl

theorem filterMap_head? (names : List ImportedName) {e : List (List (List Char))}
    (he : e = [] ∨ e = [[]]) :
    ((names.map ImportedName.words) ++ e).filterMap List.head? = names.map (·.name.text) := by
  have hnone : e.filterMap List.head? = [] := by
    rcases he with rfl | rfl <;> rfl
  rw [List.filterMap_append, hnone, List.append_nil, List.filterMap_map]
  exact List.filterMap_eq_map' (f := fun n : ImportedName => n.name.text) ▸ rfl

theorem Lists.firstWords (h : st.Lists s) : firstWords s = st.names.map (·.name.text) := by
  obtain ⟨e, he, hsplit⟩ := h.splitOn
  rw [firstWords_eq, hsplit, filterMap_head? _ he]

theorem Lists.tail_names (h : st.Lists s) :
    (((DepGraph.tokens s).splitOn [',']).tail).filterMap List.head? =
      st.names.tail.map (·.name.text) := by
  obtain ⟨e, he, hsplit⟩ := h.splitOn
  have hne : st.names.map ImportedName.words ≠ [] := by simpa using st.names_ne_nil
  rw [hsplit, List.tail_append_of_ne_nil hne, ← List.map_tail, filterMap_head? _ he]

/-- A list is made of blanks, commas and characters of names. -/
theorem Lists.plain (h : st.Lists s) :
    ∀ c ∈ s, isBlank c = true ∨ c = ',' ∨ isImportChar c = true := by
  intro c hc
  by_cases hblank : isBlank c = true
  · exact .inl hblank
  obtain ⟨t, ht, hct⟩ := exists_mem_tokens (by simpa using hblank) hc
  have htokens : t ∈ st.tokens ∨ t = [','] := by
    rcases h with h | h
    · exact .inl (h ▸ ht)
    · rw [h, List.mem_append, List.mem_singleton] at ht
      exact ht
  have hmem : ∀ t ∈ st.tokens, t = [','] ∨ ∀ c ∈ t, isImportChar c = true := by
    refine forall_mem_intercalate (by simp) fun ws hws w hw => ?_
    obtain ⟨n, -, rfl⟩ := List.mem_map.1 hws
    exact .inr (n.plain_words w hw).2
  rcases htokens with ht | rfl
  · rcases hmem t ht with rfl | ht
    · exact .inr (.inl (by simpa using hct))
    · exact .inr (.inr (ht c hct))
  · exact .inr (.inl (by simpa using hct))

theorem Lists.not_mem {c : Char} (h : st.Lists s) (hblank : isBlank c = false) (hcomma : c ≠ ',')
    (hc : isImportChar c = false) : c ∉ s := by
  intro hmem
  rcases h.plain c hmem with h | h | h
  · exact ne_of_isBlank h hblank rfl
  · exact hcomma h
  · rw [hc] at h
    cases h

theorem Lists.quoteFree (h : st.Lists s) : IsQuoteFree s :=
  isQuoteFree_iff.2 ⟨h.not_mem rfl (by decide) rfl, h.not_mem rfl (by decide) rfl⟩

theorem Lists.ne_nil (h : st.Lists s) : s ≠ [] := by
  rintro rfl
  obtain ⟨e, he, hsplit⟩ := h.splitOn
  obtain ⟨n, names, hnames⟩ := List.exists_cons_of_ne_nil st.names_ne_nil
  have hnone : DepGraph.tokens [] = [] := rfl
  rw [hnames, hnone] at hsplit
  simp [ImportedName.words] at hsplit

end ListImport

/-! ## What a statement refers to -/

def isParenthesis (c : Char) : Bool := c == '(' || c == ')'

section
variable {p m x y s s' t o : List Char} {d : Char}

/-- Parentheses are taken away at the front, and the last one at the end. -/
theorem dropParentheses_eq (hp : ∀ c ∈ p, isParenthesis c = true) (hne : y ≠ [])
    (hhead : ∀ c ∈ y.head?, isParenthesis c = false)
    (hlast : ∀ c ∈ y.getLast?, isParenthesis c = false) :
    dropParentheses (p ++ (y ++ [')'])) = y := by
  have hfront : (p ++ (y ++ [')'])).dropWhile isParenthesis = y ++ [')'] := by
    rw [List.dropWhile_append_of_pos hp]
    cases y with
    | nil => exact absurd rfl hne
    | cons c y => exact List.dropWhile_cons_of_neg (by simp [hhead c rfl])
  have hback : (y ++ [')']).rdropWhile isParenthesis = y := by
    rw [List.rdropWhile_concat_pos _ _ _ (by decide)]
    cases y using List.reverseRecOn with
    | nil => rfl
    | append_singleton y c =>
      exact List.rdropWhile_concat_neg _ _ _ (by simp [hlast c (by simp)])
  have hdef : dropParentheses (p ++ (y ++ [')'])) =
      ((p ++ (y ++ [')'])).dropWhile isParenthesis).rdropWhile isParenthesis := rfl
  rw [hdef, hfront, hback]

/-- Where a list opens behind other items, the list counts from its second item on. -/
theorem firstWords_opened_congr (hd : isBlank d = false) (hcomma : d ≠ ',')
    (h : (((tokens s).splitOn [',']).tail).filterMap List.head? =
      (((tokens s').splitOn [',']).tail).filterMap List.head?) (m : List Char) :
    firstWords (m ++ d :: ' ' :: '(' :: s) = firstWords (m ++ d :: ' ' :: '(' :: s') := by
  by_cases hm : ',' ∈ m
  · obtain ⟨x, y, rfl, -⟩ := List.eq_append_cons_of_mem hm
    rw [List.append_assoc, List.append_assoc, List.cons_append, List.cons_append,
      firstWords_comma, firstWords_comma, firstWords_opened_congr hd hcomma h y]
  · have hx : ',' ∉ m ++ [d] := by simp [hm, Ne.symm hcomma]
    have hwords : words (m ++ [d]) ≠ [] := by
      obtain ⟨w, hw, -⟩ := exists_mem_words (s := m ++ [d]) hd (by simp)
      exact List.ne_nil_of_mem hw
    have happend (s : List Char) :
        m ++ d :: ' ' :: '(' :: s = (m ++ [d]) ++ ' ' :: '(' :: s := by simp
    rw [happend, happend, firstWords_opened hx hwords, firstWords_opened hx hwords, h]
  termination_by m.length

end

namespace ListImport

variable {st : ListImport} {s s' t o : List Char}

theorem Lists.not_parenthesis (h : st.Lists s) : ∀ c ∈ s, isParenthesis c = false := by
  intro c hc
  rw [isParenthesis, Bool.or_eq_false_iff, beq_eq_false_iff_ne, beq_eq_false_iff_ne]
  constructor
  · rintro rfl
    exact h.not_mem rfl (by decide) rfl hc
  · rintro rfl
    exact h.not_mem rfl (by decide) rfl hc

/-- The statement up to its list, as the beginning of a line. -/
def fromLine (st : ListImport) : FromLine where
  front := st.indent
  afterFrom := [' ']
  base := st.base.text
  afterBase := [' ']
  keyword := "import".toList
  afterKeyword := [' ']
  front_blank := st.indent_blank
  isGap_afterFrom := isGap_space
  isWord_base := st.base.isWord
  isGap_afterBase := isGap_space
  isWord_keyword := isWord_import
  isGap_afterKeyword := isGap_space

theorem indent_opening (st : ListImport) (x : List Char) :
    st.indent ++ (st.opening ++ x) = st.fromLine.text ('(' :: x) := by
  have hfrom : "from ".toList = "from".toList ++ [' '] := by decide
  have himport : " import (".toList = [' '] ++ ("import".toList ++ [' ', '(']) := by decide
  rw [opening, hfrom, himport, FromLine.text, fromLine]
  simp only [List.append_assoc, List.cons_append, List.nil_append]

theorem not_mem_opening (st : ListImport) {c : Char} (hends : c ∉ "from ".toList ++ " import (".toList)
    (hc : isImportChar c = false) : c ∉ st.opening := by
  rw [List.mem_append, not_or] at hends
  rw [opening, List.mem_append, List.mem_append]
  rintro (hmem | hmem | hmem)
  · exact hends.1 hmem
  · exact st.base.not_mem hc hmem
  · exact hends.2 hmem

theorem quoteFree_opening (st : ListImport) : IsQuoteFree st.opening :=
  isQuoteFree_iff.2 ⟨st.not_mem_opening (by decide) rfl, st.not_mem_opening (by decide) rfl⟩

/-- **What a statement with parentheses refers to**: it depends on the names listed, and
  neither on the blanks between them nor on a comment behind the statement. -/
theorem importTargets_closed (h : st.Lists s) (ht : IsTrailer t) (hs : '\n' ∉ s) (hfeed : '\n' ∉ t)
    (hcall : findFirst calledModule? t = none) :
    importTargets (st.indent ++ (st.opening ++ (s ++ ')' :: t))) = st.targets := by
  have hhash : '#' ∉ '(' :: s := by
    rw [List.mem_cons, not_or]
    exact ⟨by decide, h.not_mem rfl (by decide) rfl⟩
  have hnames : '\n' ∉ '(' :: s := by
    rw [List.mem_cons, not_or]
    exact ⟨by decide, hs⟩
  have hread := st.fromLine.readImport?_text (s := '(' :: (s ++ ')' :: t)) (by simp; decide)
    (shortestBody?_closed hhash hnames ht hfeed)
  have hdrop : dropParentheses (['('] ++ (s ++ [')'])) = s :=
    dropParentheses_eq (by decide) h.ne_nil (fun c hc => h.not_parenthesis c (List.mem_of_mem_head? hc))
      fun c hc => h.not_parenthesis c (List.mem_of_getLast? hc)
  have hindent : IsQuoteFree st.indent := isQuoteFree_iff.2
    ⟨not_mem_of_blanks st.indent_blank rfl, not_mem_of_blanks st.indent_blank rfl⟩
  have hfind := findFirst_closed ((hindent.append st.quoteFree_opening).append h.quoteFree) hcall
  rw [List.append_assoc, List.append_assoc] at hfind
  have hkeyword : st.fromLine.keyword = "import".toList := rfl
  rw [importTargets, hfind, indent_opening, hread, if_pos hkeyword, Option.map_some,
    Option.getD_some, Import.targets]
  simp only [List.cons_append, List.nil_append] at hdrop ⊢
  rw [hdrop, h.firstWords, targets]
  simp [fromLine]

/-! ## Behind a list that is open -/

theorem words_opening (st : ListImport) :
    words st.opening = ["from".toList, st.base.text, "import".toList, ['(']] := by
  have hfrom : "from ".toList = "from".toList ++ [' '] := by decide
  have himport : words "import (".toList = ["import".toList, ['(']] := by decide
  have hspace : " import (".toList = ' ' :: "import (".toList := by decide
  rw [opening, hfrom, hspace, List.append_assoc,
    words_solid_append isWord_from.1 isWord_from.2 (by simp; decide), List.singleton_append,
    words_cons (by decide), words_solid_append st.base.isWord.1 st.base.isWord.2 (by simp; decide),
    words_cons (by decide), himport]

/-- What a line that opens a list begins with, and what it does not hold. -/
structure IsOpened (o : List Char) : Prop where
  first : (words o).head? = some "from".toList
  hash : '#' ∉ o
  feed : '\n' ∉ o

theorem isGap_of_head {b w r : List Char} (hb : ∀ c ∈ b, isBlank c = true) (hw : IsWord w)
    (h : ∀ c ∈ (b ++ (w ++ r)).head?, isBlank c = true) : IsGap b := by
  refine ⟨?_, hb⟩
  rintro rfl
  obtain ⟨c, w, rfl⟩ := List.exists_cons_of_ne_nil hw.1
  have hblank := h c rfl
  rw [hw.2 c List.mem_cons_self] at hblank
  cases hblank

/-- If a text ends as an opening does, so does each end of it that has two words at least. -/
theorem exists_eq_append_end {u y w v : List Char} {more : List (List Char)} (hy : y <:+ u)
    (hend : ['t', ' ', '('] <:+ u)
    (hwords : words y = w :: v :: more) : ∃ m, y = m ++ ['t', ' ', '('] := by
  rcases List.suffix_or_suffix_of_suffix hend hy with ⟨m, hm⟩ | hshort
  · exact ⟨m, hm.symm⟩
  · rw [List.suffix_cons_iff, List.suffix_cons_iff, List.suffix_cons_iff, List.suffix_nil] at hshort
    rcases hshort with rfl | rfl | rfl | rfl
    · exact ⟨[], rfl⟩
    all_goals
      revert hwords
      simp [words, runsOutside, isBlank]

theorem end_suffix_opening (st : ListImport) (o : List Char) :
    ['t', ' ', '('] <:+ o ++ ' ' :: st.opening := by
  have himport : " import (".toList = " impor".toList ++ ['t', ' ', '('] := by decide
  refine ⟨o ++ ' ' :: ("from ".toList ++ (st.base.text ++ " impor".toList)), ?_⟩
  rw [opening, himport]
  simp only [List.append_assoc, List.cons_append]

/-- Behind an open list there are five words at least up to the names, the first of which is
  `from`. -/
theorem exists_words_opened (st : ListImport) (ho : IsOpened o) :
    ∃ w₁ w₂ w₃ w₄ more,
      words (o ++ ' ' :: st.opening) = "from".toList :: w₁ :: w₂ :: w₃ :: w₄ :: more := by
  obtain ⟨ws, hws⟩ : ∃ ws, words o = "from".toList :: ws := List.head?_eq_some_iff.1 ho.first
  rw [words_append_cons (by decide), hws, words_opening]
  match ws with
  | [] => exact ⟨_, _, _, _, _, rfl⟩
  | [_] => exact ⟨_, _, _, _, _, rfl⟩
  | [_, _] => exact ⟨_, _, _, _, _, rfl⟩
  | [_, _, _] => exact ⟨_, _, _, _, _, rfl⟩
  | _ :: _ :: _ :: _ :: _ => exact ⟨_, _, _, _, _, rfl⟩

/-- The first three words of an open list are those of its line and of the statement that
  follows, and do not depend on the names of the statement. -/
theorem exists_fromLine (st : ListImport) (ho : IsOpened o) :
    ∃ (f : FromLine) (m : List Char), (∀ c ∈ (m ++ ['t']).head?, isBlank c = false) ∧
      ∀ x, o ++ ' ' :: (st.opening ++ x) = f.text (m ++ 't' :: ' ' :: '(' :: x) := by
  obtain ⟨base, keyword, w₃, w₄, more, hwords⟩ := st.exists_words_opened ho
  obtain ⟨front, r₀, hu, hfront, -, -, hr₀, hwords₀⟩ := exists_first_word hwords
  obtain ⟨gap, r₁, rfl, hgap, hne₁, hsolid₁, hr₁, hwords₁⟩ := exists_first_word hwords₀
  obtain ⟨gap', r₂, rfl, hgap', hne₂, hsolid₂, hr₂, hwords₂⟩ := exists_first_word hwords₁
  obtain ⟨gap'', r₃, rfl, hgap'', hne₃, hsolid₃, hr₃, hwords₃⟩ := exists_first_word hwords₂
  have hthird : IsWord w₃ := ⟨hne₃, hsolid₃⟩
  have hrest : words (w₃ ++ r₃) = w₃ :: w₄ :: more := by
    rw [words_solid_append hne₃ hsolid₃ hr₃, hwords₃]
  have hsuffix : w₃ ++ r₃ <:+ o ++ ' ' :: st.opening :=
    ⟨front ++ ("from".toList ++ (gap ++ (base ++ (gap' ++ (keyword ++ gap''))))), by
      rw [hu]; simp only [List.append_assoc]⟩
  obtain ⟨m, hm⟩ := exists_eq_append_end hsuffix (st.end_suffix_opening o) hrest
  have hline := hu
  rw [hm] at hline
  refine ⟨⟨front, gap, base, gap', keyword, gap'', hfront, isGap_of_head hgap ⟨hne₁, hsolid₁⟩ hr₀,
    ⟨hne₁, hsolid₁⟩, isGap_of_head hgap' ⟨hne₂, hsolid₂⟩ hr₁, ⟨hne₂, hsolid₂⟩,
    isGap_of_head hgap'' hthird hr₂⟩, m, ?_, fun x => ?_⟩
  · have hhead := hthird.head_append r₃
    rw [hm] at hhead
    cases m with
    | nil => simpa using hhead
    | cons c m => simpa using hhead
  · have happend : o ++ ' ' :: (st.opening ++ x) = (o ++ ' ' :: st.opening) ++ x := by simp
    rw [happend, hline, FromLine.text]
    simp only [List.append_assoc, List.cons_append, List.nil_append]

/-- Of an open list with a further statement in it, the parentheses at the front and the last
  one are taken away. -/
theorem dropParentheses_opened (h : st.Lists s) (m : List Char) :
    dropParentheses (m ++ 't' :: ' ' :: '(' :: (s ++ [')'])) =
      m.dropWhile isParenthesis ++ 't' :: ' ' :: '(' :: s := by
  have hm := List.takeWhile_append_dropWhile (p := isParenthesis) (l := m)
  have hstop := List.head?_dropWhile_not isParenthesis m
  have hfront : ∀ c ∈ m.takeWhile isParenthesis, isParenthesis c = true :=
    fun c hc => List.mem_takeWhile_imp hc
  generalize m.takeWhile isParenthesis = p at hm hfront
  generalize m.dropWhile isParenthesis = n at hm hstop ⊢
  subst hm
  obtain ⟨x, c, hx⟩ : ∃ x c, s = x ++ [c] :=
    ⟨s.dropLast, s.getLast h.ne_nil, (List.dropLast_append_getLast h.ne_nil).symm⟩
  have hdrop := dropParentheses_eq (y := n ++ 't' :: ' ' :: '(' :: s) hfront (by simp)
    (fun d hd => by
      cases n with
      | nil =>
        obtain rfl : 't' = d := by simpa using hd
        decide
      | cons e n =>
        obtain rfl : e = d := by simpa using hd
        simpa using hstop)
    (fun d hd => by
      have hlast : (n ++ 't' :: ' ' :: '(' :: s).getLast? = some c := by
        rw [hx, ← List.cons_append, ← List.cons_append, ← List.cons_append, ← List.append_assoc,
          List.getLast?_concat]
      obtain rfl : c = d := by simpa [hlast] using hd
      exact h.not_parenthesis c (by simp [hx]))
  simpa using hdrop

/-- Behind an open list, what is read depends on the names of the statement at its end only. -/
theorem exists_readImport? (st : ListImport) (ho : IsOpened o) : ∃ base keyword m : List Char,
    ∀ s, st.Lists s → '\n' ∉ s → readImport? (o ++ ' ' :: (st.opening ++ (s ++ [')']))) =
      if keyword = "import".toList then
        some (.members base (m ++ 't' :: ' ' :: '(' :: (s ++ [')'])))
      else none := by
  obtain ⟨f, m, hhead, heq⟩ := st.exists_fromLine ho
  refine ⟨f.base, f.keyword, m, fun s h hs => ?_⟩
  have hm {c : Char} (ho : c ∉ o) (hspace : c ≠ ' ') (hopening : c ∉ st.opening) : c ∉ m := by
    intro hmem
    have htext : c ∈ o ++ ' ' :: (st.opening ++ []) := by
      rw [heq [], FromLine.text]
      simp [hmem]
    simp [ho, hspace, hopening] at htext
  have hhash : '#' ∉ m := hm ho.hash (by decide) (st.not_mem_opening (by decide) rfl)
  have hfeed : '\n' ∉ m := hm ho.feed (by decide) (st.not_mem_opening (by decide) rfl)
  have hlist : '#' ∉ s := h.not_mem rfl (by decide) rfl
  have hbody := shortestBody?_closed (x := m ++ 't' :: ' ' :: '(' :: s) (t := [])
    (by simp [hhash, hlist]) (by simp [hfeed, hs]) (by simp [IsTrailer]) List.not_mem_nil
  rw [List.append_assoc] at hbody
  rw [heq]
  refine f.readImport?_text ?_ hbody
  cases m with
  | nil => simpa using hhead
  | cons c m => simpa using hhead

theorem findFirst_opened (h : st.Lists s) (o : List Char) :
    findFirst calledModule? (o ++ ' ' :: (st.opening ++ (s ++ [')']))) =
      findFirst calledModule? (o ++ [' ']) := by
  have hclosing : IsQuoteFree [')'] := isQuoteFree_iff.2 (by decide)
  have hfirst := findFirst_append (st.quoteFree_opening.append (h.quoteFree.append hclosing))
    (o ++ [' '])
  rwa [List.append_assoc, List.singleton_append] at hfirst

/-- **The same behind a list that is open**, and that the statement continues. -/
theorem importTargets_within (ho : IsOpened o) (h : st.Lists s) (h' : st.Lists s')
    (hs : '\n' ∉ s) (hs' : '\n' ∉ s') :
    importTargets (o ++ ' ' :: (st.opening ++ (s ++ [')']))) =
      importTargets (o ++ ' ' :: (st.opening ++ (s' ++ [')']))) := by
  obtain ⟨base, keyword, m, hread⟩ := st.exists_readImport? ho
  have htargets : (Import.members base (m ++ 't' :: ' ' :: '(' :: (s ++ [')']))).targets =
      (Import.members base (m ++ 't' :: ' ' :: '(' :: (s' ++ [')']))).targets := by
    rw [Import.targets, Import.targets, dropParentheses_opened h, dropParentheses_opened h',
      firstWords_opened_congr (by decide) (by decide) (h.tail_names.trans h'.tail_names.symm)]
  rw [importTargets, importTargets, hread s h hs, hread s' h' hs', findFirst_opened h,
    findFirst_opened h']
  split
  · rw [Option.map_some, Option.map_some, htargets]
  · rfl

end ListImport

end DepGraph
