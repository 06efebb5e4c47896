/-
  DepGraph — lists of imports over several lines.

  A statement that lists names in parentheses may be written over several lines, each with
  a comment.  Before it is read, its lines are joined; so it means what it means on one
  line, unless a comment holds what the joining looks for.

  * `Layout`: the lines over which a statement is written, and `Layout.IsHarmless`: what
    their comments must not hold.
  * `logicalLinesFrom_parts`: the lines of an open list become one.
  * `flatMap_lines`, `logicalLinesFrom_lines`: those of a layout, where no list is open before
    it and where one is.
  * `flatMap_logicalLinesFrom_congr`: lines before a text do not matter.
  * `references_layout`: the layout of a statement does not matter.
-/
import DepGraph.Proofs.Language.ImportList

namespace DepGraph

open DepGraph.Text

/-! ## Layouts -/

/-- A line of a list: a part of the list, and blanks and perhaps a comment behind it. -/
structure LayoutLine where
  code : List Char
  trailer : List Char
  isTrailer : IsTrailer trailer

/-- The lines of a list; the first one continues `front`, and the last one is closed. -/
def layoutLines (front : List Char) : List LayoutLine → List (List Char)
  | [] => []
  | [p] => [front ++ (p.code ++ ')' :: p.trailer)]
  | p :: q :: rest => (front ++ (p.code ++ p.trailer)) :: layoutLines [] (q :: rest)

/-- A way to write a statement: the parts of its list. -/
structure Layout (st : ListImport) where
  parts : List LayoutLine
  parts_ne_nil : parts ≠ []
  lists : st.Lists (['\n'].intercalate (parts.map (·.code)))

def Layout.lines {st : ListImport} (l : Layout st) : List (List Char) :=
  layoutLines (st.indent ++ st.opening) l.parts

/-- No comment before the last line holds a closing parenthesis; and the comment of a
  statement on one line holds no call. -/
structure Layout.IsHarmless {st : ListImport} (l : Layout st) : Prop where
  open_ : ∀ p ∈ l.parts.dropLast, ')' ∉ p.trailer
  call : ∀ p, l.parts = [p] → findFirst calledModule? p.trailer = none

/-- A statement on one line, without a comment. -/
def ListImport.line (st : ListImport) : List Char := st.indent ++ (st.opening ++ (st.list ++ [')']))

/-! ## The statement on one line -/

section
variable {st : ListImport}

theorem words_intercalate {ws : List (List Char)} (h : ∀ w ∈ ws, IsWord w) :
    words ([' '].intercalate ws) = ws := by
  induction ws with
  | nil => rfl
  | cons w rest ih =>
    rw [List.forall_mem_cons] at h
    cases rest with
    | nil => simpa using words_of_solid h.1.1 h.1.2
    | cons v rest =>
      rw [List.intercalate_cons_cons, List.append_assoc, List.singleton_append,
        words_append_cons (by decide), ih h.2, words_of_solid h.1.1 h.1.2, List.singleton_append]

theorem ImportedName.tokens_text (n : ImportedName) :
    tokens ([' '].intercalate n.words) = n.words := by
  have hcomma : ',' ∉ [' '].intercalate n.words := by
    intro hmem
    refine forall_mem_intercalate (P := (· ≠ ',')) (by decide) (fun w hw c hc => ?_) ',' hmem rfl
    rintro rfl
    have hplain := (n.plain_words w hw).2 ',' hc
    cases hplain
  rw [tokens_of_not_mem hcomma, words_intercalate]
  intro w hw
  obtain ⟨hne, hplain⟩ := n.plain_words w hw
  exact ⟨hne, fun c hc => solid_of_isImportChar (hplain c hc)⟩

theorem ListImport.lists_list (st : ListImport) : st.Lists st.list := by
  refine .inl ?_
  rw [list, ListImport.tokens]
  induction st.names with
  | nil => rfl
  | cons n rest ih =>
    cases rest with
    | nil => simpa using n.tokens_text
    | cons m rest =>
      have hblank (s : List Char) : DepGraph.tokens (' ' :: s) = DepGraph.tokens s :=
        tokens_append_cons (by decide) [] s
      rw [List.map_cons] at ih
      rw [List.map_cons, List.map_cons, List.map_cons, List.map_cons, List.intercalate_cons_cons,
        List.intercalate_cons_cons, List.append_assoc, List.cons_append, List.cons_append,
        List.nil_append, tokens_comma, hblank, ih, n.tokens_text]
      simp

/-- The layout on one line. -/
def ListImport.oneLine (st : ListImport) : Layout st where
  parts := [⟨st.list, [], by simp [IsTrailer]⟩]
  parts_ne_nil := by simp
  lists := by simpa using st.lists_list

theorem ListImport.isHarmless_oneLine (st : ListImport) : st.oneLine.IsHarmless := by
  refine ⟨by simp [oneLine], fun p hp => ?_⟩
  obtain rfl := (List.cons.inj hp).1
  rfl

theorem ListImport.lines_oneLine (st : ListImport) : st.oneLine.lines = [st.line] := by
  simp [Layout.lines, oneLine, layoutLines, line]

end

/-! ## Joined lines -/

/-- What a line shows, up to its comment. -/
def LayoutLine.visible (p : LayoutLine) : List Char := p.code ++ beforeComment p.trailer

/-- The lines of an open list, joined. -/
def joinParts : List LayoutLine → List Char
  | [] => []
  | [p] => trimLeft p.code
  | p :: q :: rest => trim p.visible ++ ' ' :: joinParts (q :: rest)

/-- The lines of a list, joined; the first one follows the parenthesis. -/
def listText : List LayoutLine → List Char
  | [] => []
  | [p] => p.code
  | p :: q :: rest => trimRight p.visible ++ ' ' :: joinParts (q :: rest)

section
variable {o x t front : List Char} {parts : List LayoutLine} {after : List (List Char)}

theorem beforeComment_append (hx : '#' ∉ x) (t : List Char) :
    beforeComment (x ++ t) = x ++ beforeComment t := by
  refine List.takeWhile_append_of_pos fun c hc => ?_
  rw [bne_iff_ne]
  rintro rfl
  exact hx hc

theorem tokens_visible (p : LayoutLine) : tokens p.visible = tokens p.code :=
  tokens_append_blanks p.isTrailer

theorem tokens_feed (p q : LayoutLine) (rest : List LayoutLine) :
    tokens (['\n'].intercalate ((p :: q :: rest).map (·.code))) =
      tokens p.code ++ tokens (['\n'].intercalate ((q :: rest).map (·.code))) := by
  rw [List.map_cons, List.map_cons, List.intercalate_cons_cons, List.append_assoc,
    List.singleton_append, tokens_append_cons (by decide)]

theorem tokens_joinParts (parts : List LayoutLine) :
    tokens (joinParts parts) = tokens (['\n'].intercalate (parts.map (·.code))) := by
  induction parts with
  | nil => rfl
  | cons p rest ih =>
    cases rest with
    | nil => simpa [joinParts] using tokens_trimLeft p.code
    | cons q rest =>
      rw [tokens_feed, ← ih, joinParts, tokens_append_cons (by decide), trim, tokens_trimRight,
        tokens_trimLeft, tokens_visible]

theorem tokens_listText (parts : List LayoutLine) :
    tokens (listText parts) = tokens (['\n'].intercalate (parts.map (·.code))) := by
  match parts with
  | [] => rfl
  | [p] => simp [listText]
  | p :: q :: rest =>
    rw [tokens_feed, ← tokens_joinParts, listText, tokens_append_cons (by decide),
      tokens_trimRight, tokens_visible]

/-- The lines of an open list become one. -/
theorem logicalLinesFrom_parts (hne : parts ≠ [])
    (hplain : ∀ p ∈ parts, '#' ∉ p.code ∧ ')' ∉ p.code)
    (hopen : ∀ p ∈ parts.dropLast, ')' ∉ p.trailer) (o : List Char) :
    logicalLinesFrom (some o) (layoutLines [] parts ++ after) =
      (o ++ ' ' :: (joinParts parts ++ [')'])) :: logicalLinesFrom none after := by
  induction parts generalizing o with
  | nil => exact absurd rfl hne
  | cons p rest ih =>
    rw [List.forall_mem_cons] at hplain
    obtain ⟨⟨hhash, hclosing⟩, hplain⟩ := hplain
    cases rest with
    | nil =>
      have hcontains : (p.code ++ ')' :: p.trailer).contains ')' = true := by simp
      have hbefore : beforeComment (p.code ++ ')' :: p.trailer) =
          p.code ++ ')' :: beforeComment p.trailer := by
        rw [beforeComment_append hhash]
        rfl
      have hblank : trimRight (beforeComment p.trailer) = [] :=
        List.rdropWhile_eq_nil_iff.2 p.isTrailer
      rw [layoutLines, List.nil_append, List.singleton_append, logicalLinesFrom, if_pos hcontains,
        hbefore, trim_append _ (by decide), hblank, joinParts]
    | cons q rest =>
      rw [List.dropLast_cons_cons, List.forall_mem_cons] at hopen
      have hcontains : ¬ (p.code ++ p.trailer).contains ')' = true := by
        simp [hclosing, hopen.1]
      rw [layoutLines, List.nil_append, List.cons_append, logicalLinesFrom, if_neg hcontains,
        ih (List.cons_ne_nil q rest) hplain hopen.2, beforeComment_append hhash, joinParts,
        LayoutLine.visible]
      simp

end

namespace Layout

variable {st : ListImport} (l : Layout st) {o : List Char} {after : List (List Char)}

theorem lists_listText : st.Lists (listText l.parts) := by
  have h := l.lists
  rw [ListImport.Lists, ← tokens_listText] at h
  exact h

/-- The parts of a list hold neither a comment nor a parenthesis. -/
theorem plain_parts : ∀ p ∈ l.parts, '#' ∉ p.code ∧ ')' ∉ p.code := by
  intro p hp
  have hmem {c : Char} (hc : c ∈ p.code) : c ∈ ['\n'].intercalate (l.parts.map (·.code)) :=
    mem_intercalate (List.mem_map_of_mem hp) hc
  exact ⟨fun hc => l.lists.not_mem rfl (by decide) rfl (hmem hc),
    fun hc => l.lists.not_mem rfl (by decide) rfl (hmem hc)⟩

end Layout

theorem feed_not_mem_parts {front : List Char} {parts : List LayoutLine}
    (h : ∀ line ∈ layoutLines front parts, '\n' ∉ line) :
    ∀ p ∈ parts, '\n' ∉ p.code ∧ '\n' ∉ p.trailer := by
  induction parts generalizing front with
  | nil => simp
  | cons p rest ih =>
    cases rest with
    | nil =>
      have hline := h _ List.mem_cons_self
      simp only [List.mem_append, List.mem_cons, not_or] at hline
      rw [List.forall_mem_singleton]
      exact ⟨hline.2.1, hline.2.2.2⟩
    | cons q rest =>
      rw [layoutLines, List.forall_mem_cons] at h
      have hline := h.1
      simp only [List.mem_append, not_or] at hline
      rw [List.forall_mem_cons]
      exact ⟨hline.2, ih h.2⟩

theorem feed_not_mem_visible {p : LayoutLine} (h : '\n' ∉ p.code ∧ '\n' ∉ p.trailer) :
    '\n' ∉ p.visible := by
  have hsub : beforeComment p.trailer ⊆ p.trailer := (List.takeWhile_sublist _).subset
  rw [LayoutLine.visible, List.mem_append, not_or]
  exact ⟨h.1, fun hmem => h.2 (hsub hmem)⟩

theorem feed_not_mem_joinParts {parts : List LayoutLine}
    (h : ∀ p ∈ parts, '\n' ∉ p.code ∧ '\n' ∉ p.trailer) : '\n' ∉ joinParts parts := by
  induction parts with
  | nil => exact List.not_mem_nil
  | cons p rest ih =>
    rw [List.forall_mem_cons] at h
    cases rest with
    | nil => exact fun hmem => h.1.1 (trimLeft_subset _ hmem)
    | cons q rest =>
      rw [joinParts, List.mem_append, List.mem_cons, not_or, not_or]
      exact ⟨fun hmem => feed_not_mem_visible h.1 (trim_subset _ hmem), by decide, ih h.2⟩

theorem feed_not_mem_listText {parts : List LayoutLine}
    (h : ∀ p ∈ parts, '\n' ∉ p.code ∧ '\n' ∉ p.trailer) : '\n' ∉ listText parts := by
  match parts with
  | [] => exact List.not_mem_nil
  | [p] => exact (h p List.mem_cons_self).1
  | p :: q :: rest =>
    rw [List.forall_mem_cons] at h
    rw [listText, List.mem_append, List.mem_cons, not_or, not_or]
    exact ⟨fun hmem => feed_not_mem_visible h.1 (trimRight_subset _ hmem), by decide,
      feed_not_mem_joinParts h.2⟩

/-! ## The statement between other lines -/

namespace ListImport

variable (st : ListImport)

/-- No character stands before the list that is neither blank, nor of a name, nor of the keywords. -/
theorem not_mem_start {c : Char} (hblank : isBlank c = false)
    (hends : c ∉ "from ".toList ++ " import (".toList) (hc : isImportChar c = false) :
    c ∉ st.indent ++ st.opening := by
  rw [List.mem_append, not_or]
  exact ⟨not_mem_of_blanks st.indent_blank hblank, st.not_mem_opening hends hc⟩

theorem hash_not_mem_start : '#' ∉ st.indent ++ st.opening :=
  st.not_mem_start rfl (by decide) rfl

theorem closing_not_mem_start : ')' ∉ st.indent ++ st.opening :=
  st.not_mem_start rfl (by decide) rfl

theorem trimRight_start (x v : List Char) :
    trimRight (x ++ (st.opening ++ v)) = x ++ (st.opening ++ trimRight v) := by
  have hend : " import (".toList = " import ".toList ++ ['('] := by decide
  have hopening (v : List Char) : x ++ (st.opening ++ v) =
      (x ++ ("from ".toList ++ (st.base.text ++ " import ".toList))) ++ '(' :: v := by
    rw [opening, hend]
    simp only [List.append_assoc, List.cons_append, List.nil_append]
  rw [hopening, trimRight_append _ (by decide), hopening]

theorem trimLeft_start (v : List Char) : trimLeft (st.indent ++ (st.opening ++ v)) = st.opening ++ v := by
  have hfrom : "from ".toList = 'f' :: "rom ".toList := by decide
  rw [trimLeft, List.dropWhile_append_of_pos st.indent_blank]
  refine trimLeft_of_head fun c hc => ?_
  rw [opening, hfrom] at hc
  obtain rfl : 'f' = c := by simpa using hc
  decide

theorem trim_start (v : List Char) :
    trim ((st.indent ++ st.opening) ++ v) = st.opening ++ trimRight v := by
  rw [trim, List.append_assoc, trimLeft_start]
  exact st.trimRight_start [] v

/-- The first line of a statement opens its list. -/
theorem opensList_start {p : LayoutLine} (hplain : ')' ∉ p.code) (hopen : ')' ∉ p.trailer)
    (hfeed : '\n' ∉ p.code ∧ '\n' ∉ p.trailer) :
    opensList ((st.indent ++ st.opening) ++ (p.code ++ p.trailer)) = true := by
  have hbody : (shortestBody? ('(' :: (p.code ++ p.trailer))).isSome = true :=
    isSome_shortestBody? (by simp) (by simpa using hfeed)
  obtain ⟨names, hnames⟩ := Option.isSome_iff_exists.1 hbody
  have hread := st.fromLine.readMembers?_text (by simp; decide) hnames
  have hkeyword : st.fromLine.keyword = "import".toList := rfl
  have hparenthesis : '(' ∈ st.opening := by
    have himport : '(' ∈ " import (".toList := by decide
    rw [opening, List.mem_append, List.mem_append]
    exact .inr (.inr himport)
  have hclosing : ')' ∉ (st.indent ++ st.opening) ++ (p.code ++ p.trailer) := by
    rw [List.mem_append, List.mem_append (s := p.code), not_or, not_or]
    exact ⟨st.closing_not_mem_start, hplain, hopen⟩
  have hsome : (readMembers? ((st.indent ++ st.opening) ++ (p.code ++ p.trailer))).isSome = true := by
    rw [List.append_assoc, indent_opening, hread, if_pos hkeyword]
    rfl
  have hcontains : (beforeComment ((st.indent ++ st.opening) ++ (p.code ++ p.trailer))).contains
      '(' = true := by
    rw [beforeComment_append st.hash_not_mem_start]
    simp [hparenthesis]
  rw [opensList, hsome, hcontains, Bool.true_and, Bool.true_and, Bool.not_eq_true',
    Bool.eq_false_iff, ne_eq, List.contains_iff_mem]
  exact hclosing

end ListImport

namespace Layout

variable {st : ListImport} (l : Layout st) {o : List Char} {after : List (List Char)}

/-- The lines of a statement, where no list is open: the statement is read for itself. -/
theorem flatMap_lines (h : l.IsHarmless) (hfeed : ∀ line ∈ l.lines, '\n' ∉ line) :
    (logicalLinesFrom none (l.lines ++ after)).flatMap importTargets =
      st.targets ++ (logicalLinesFrom none after).flatMap importTargets := by
  have hparts := feed_not_mem_parts hfeed
  have hlist := feed_not_mem_listText hparts
  have hplain := l.plain_parts
  have hlists := l.lists_listText
  obtain ⟨hopen, hcall⟩ := h
  rw [Layout.lines]
  obtain ⟨p, rest, heq⟩ := List.exists_cons_of_ne_nil l.parts_ne_nil
  rw [heq] at hparts hlist hplain hlists hopen ⊢
  rw [List.forall_mem_cons] at hparts hplain
  cases rest with
  | nil =>
    have hopens : opensList ((st.indent ++ st.opening) ++ (p.code ++ ')' :: p.trailer)) = false := by
      simp [opensList]
    have hread := ListImport.importTargets_closed hlists p.isTrailer hlist hparts.1.2 (hcall p heq)
    rw [listText] at hread
    rw [layoutLines, List.singleton_append, logicalLinesFrom, hopens, if_neg (by decide),
      List.flatMap_cons, List.append_assoc, hread]
  | cons q rest =>
    rw [List.dropLast_cons_cons, List.forall_mem_cons] at hopen
    have hopens := st.opensList_start hplain.1.2 hopen.1 hparts.1
    have hhash : '#' ∉ (st.indent ++ st.opening) ++ p.code := by
      rw [List.mem_append, not_or]
      exact ⟨st.hash_not_mem_start, hplain.1.1⟩
    have hread := ListImport.importTargets_closed hlists (t := []) (by simp [IsTrailer]) hlist
      List.not_mem_nil rfl
    rw [listText] at hread
    rw [layoutLines, List.cons_append, logicalLinesFrom, if_pos hopens,
      logicalLinesFrom_parts (List.cons_ne_nil q rest) hplain.2 hopen.2, List.flatMap_cons,
      ← List.append_assoc _ p.code, beforeComment_append hhash, List.append_assoc,
      List.append_assoc, ← LayoutLine.visible, st.trimRight_start, ← hread]
    simp only [List.append_assoc, List.cons_append]

/-- The lines of a statement, where a list is open: they go on with it. -/
theorem logicalLinesFrom_lines (h : l.IsHarmless) :
    logicalLinesFrom (some o) (l.lines ++ after) =
      (o ++ ' ' :: (st.opening ++ (listText l.parts ++ [')']))) :: logicalLinesFrom none after := by
  have hplain := l.plain_parts
  obtain ⟨hopen, -⟩ := h
  rw [Layout.lines]
  obtain ⟨p, rest, heq⟩ := List.exists_cons_of_ne_nil l.parts_ne_nil
  rw [heq] at hplain hopen ⊢
  rw [List.forall_mem_cons] at hplain
  have hhash : '#' ∉ (st.indent ++ st.opening) ++ p.code := by
    rw [List.mem_append, not_or]
    exact ⟨st.hash_not_mem_start, hplain.1.1⟩
  cases rest with
  | nil =>
    have hcontains : ((st.indent ++ st.opening) ++ (p.code ++ ')' :: p.trailer)).contains ')' =
        true := by simp
    have hbefore : beforeComment (')' :: p.trailer) = ')' :: beforeComment p.trailer := rfl
    have hblank : trimRight (beforeComment p.trailer) = [] :=
      List.rdropWhile_eq_nil_iff.2 p.isTrailer
    rw [layoutLines, List.singleton_append, logicalLinesFrom, if_pos hcontains,
      ← List.append_assoc _ p.code, beforeComment_append hhash, hbefore, trim_append _ (by decide),
      hblank, listText, List.append_assoc, st.trimLeft_start]
    simp only [List.append_assoc]
  | cons q rest =>
    rw [List.dropLast_cons_cons, List.forall_mem_cons] at hopen
    have hcontains : ¬ ((st.indent ++ st.opening) ++ (p.code ++ p.trailer)).contains ')' = true := by
      have hstart := st.closing_not_mem_start
      simp only [List.mem_append, not_or] at hstart
      simp [hplain.1.2, hopen.1, hstart]
    rw [layoutLines, List.cons_append, logicalLinesFrom, if_neg hcontains,
      logicalLinesFrom_parts (List.cons_ne_nil q rest) hplain.2 hopen.2,
      ← List.append_assoc _ p.code, beforeComment_append hhash, List.append_assoc _ p.code,
      ← LayoutLine.visible, st.trim_start, listText]
    simp only [List.append_assoc, List.cons_append]

end Layout

/-! ## Lines before a statement -/

section
variable {o line : List Char}

theorem exists_of_keyword? {word : String} {rest : List Char}
    (h : keyword? word line = some rest) : ∃ front gap, (∀ c ∈ front, isBlank c = true) ∧
      IsGap gap ∧ line = front ++ (word.toList ++ (gap ++ rest)) := by
  obtain ⟨front, hfront, hline⟩ := exists_trimLeft line
  obtain ⟨r, hr, hblanks⟩ := Option.bind_eq_some_iff.1 h
  have hword : word.toList ++ r = trimLeft line := List.isPrefixOf?_eq_some_iff_append_eq.1 hr
  obtain ⟨⟨gap, s⟩, hrun, rfl⟩ := Option.map_eq_some_iff.1 hblanks
  rw [run?] at hrun
  split at hrun
  · cases hrun
  · next hne =>
    obtain ⟨rfl, rfl⟩ := Prod.mk.inj (Option.some.inj hrun)
    refine ⟨front, _, hfront, ⟨hne, fun c hc => List.mem_takeWhile_imp hc⟩, ?_⟩
    rw [List.takeWhile_append_dropWhile, hword]
    exact hline

/-- A line that opens a list starts with `from`, and what is kept of it has no comment. -/
theorem isOpened_of_opensList (h : opensList line = true) (hfeed : '\n' ∉ line) :
    ListImport.IsOpened (trimRight (beforeComment line)) := by
  have hsub : trimRight (beforeComment line) ⊆ line :=
    List.Subset.trans (trimRight_subset _) (List.takeWhile_sublist _).subset
  refine ⟨?_, fun hmem => ?_, fun hmem => hfeed (hsub hmem)⟩
  · simp only [opensList, Bool.and_eq_true] at h
    obtain ⟨⟨hread, -⟩, -⟩ := h
    cases hkeyword : keyword? "from" line with
    | none => simp [readMembers?, hkeyword] at hread
    | some rest =>
      obtain ⟨front, gap, hfront, hgap, rfl⟩ := exists_of_keyword? hkeyword
      have hhash : '#' ∉ front ++ "from".toList := by
        rw [List.mem_append, not_or]
        exact ⟨not_mem_of_blanks hfront rfl, by decide⟩
      have hhead : ∀ c ∈ (beforeComment (gap ++ rest)).head?, isBlank c = true := by
        obtain ⟨g, gap, rfl⟩ := List.exists_cons_of_ne_nil hgap.1
        have hg := hgap.2 g List.mem_cons_self
        intro c hc
        rw [beforeComment, List.cons_append, List.takeWhile_cons] at hc
        split at hc
        · obtain rfl : g = c := by simpa using hc
          exact hg
        · simp at hc
      rw [words_trimRight, ← List.append_assoc, beforeComment_append hhash, List.append_assoc,
        words_blanks_append hfront, words_solid_append isWord_from.1 isWord_from.2 hhead]
      rfl
  · have := List.mem_takeWhile_imp (trimRight_subset _ hmem)
    simp at this

theorem ListImport.IsOpened.longer (ho : ListImport.IsOpened o) (hfeed : '\n' ∉ line) :
    ListImport.IsOpened (o ++ ' ' :: trim (beforeComment line)) := by
  have hsub : trim (beforeComment line) ⊆ line :=
    List.Subset.trans (trim_subset _) (List.takeWhile_sublist _).subset
  refine ⟨?_, ?_, ?_⟩
  · obtain ⟨ws, hws⟩ := List.head?_eq_some_iff.1 ho.first
    rw [words_append_cons (by decide), hws]
    rfl
  · rw [List.mem_append, List.mem_cons, not_or, not_or]
    refine ⟨ho.hash, by decide, fun hmem => ?_⟩
    have := List.mem_takeWhile_imp (trim_subset _ hmem)
    simp at this
  · rw [List.mem_append, List.mem_cons, not_or, not_or]
    exact ⟨ho.feed, by decide, fun hmem => hfeed (hsub hmem)⟩

/-- Where two texts are read alike, with no list open before them and within any open list,
  they are read alike behind any lines. -/
theorem flatMap_logicalLinesFrom_congr {x y : List (List Char)}
    (hnone : (logicalLinesFrom none x).flatMap importTargets =
      (logicalLinesFrom none y).flatMap importTargets)
    (hopen : ∀ o, ListImport.IsOpened o → (logicalLinesFrom (some o) x).flatMap importTargets =
      (logicalLinesFrom (some o) y).flatMap importTargets)
    {before : List (List Char)} (hfeed : ∀ l ∈ before, '\n' ∉ l) (opened : Option (List Char))
    (hopened : ∀ o ∈ opened, ListImport.IsOpened o) :
    (logicalLinesFrom opened (before ++ x)).flatMap importTargets =
      (logicalLinesFrom opened (before ++ y)).flatMap importTargets := by
  induction before generalizing opened with
  | nil =>
    cases opened with
    | none => exact hnone
    | some o => exact hopen o (hopened o rfl)
  | cons l before ih =>
    rw [List.forall_mem_cons] at hfeed
    have hrest := ih hfeed.2 none (by simp)
    rw [List.cons_append, List.cons_append]
    cases opened with
    | none =>
      rw [logicalLinesFrom, logicalLinesFrom]
      split
      · next hopens =>
        refine ih hfeed.2 _ fun o ho => ?_
        obtain rfl : trimRight (beforeComment l) = o := by simpa using ho
        exact isOpened_of_opensList hopens hfeed.1
      · rw [List.flatMap_cons, List.flatMap_cons, hrest]
    | some o =>
      rw [logicalLinesFrom, logicalLinesFrom]
      split
      · rw [List.flatMap_cons, List.flatMap_cons, hrest]
      · refine ih hfeed.2 _ fun o' ho' => ?_
        obtain rfl : o ++ ' ' :: trim (beforeComment l) = o' := by simpa using ho'
        exact (hopened o rfl).longer hfeed.1

end

/-! ## The layout of a statement -/

theorem references_mergeAll (parts : List Report) :
    (Report.mergeAll parts).references = parts.flatMap (·.references) := by
  have hfold (r : Report) : (parts.foldl Report.merge r).references =
      r.references ++ parts.flatMap (·.references) := by
    induction parts generalizing r with
    | nil => simp
    | cons s rest ih =>
      rw [List.foldl_cons, ih, List.flatMap_cons, Report.merge, List.append_assoc]
  exact hfold .empty

theorem references_scanPython (text : List Char) :
    (scanPython text).references =
      ((logicalLines (lines text)).flatMap importTargets).map fun m =>
        String.ofList (modulePath m) := by
  rw [scanPython, references_mergeAll, List.flatMap_map, List.map_flatMap]
  rfl

/-- **The layout of a statement does not matter**, whatever lines stand before and behind it:
  the file refers to what it refers to with the statement on one line and without comments,
  which are the members of a package, or the module that defines the names. -/
theorem references_layout {st : ListImport} (l : Layout st) (h : l.IsHarmless)
    (before after : List (List Char)) (text oneLine : List Char)
    (htext : lines text = before ++ (l.lines ++ after))
    (honeLine : lines oneLine = before ++ st.line :: after) :
    (scanPython text).references = (scanPython oneLine).references ∧
      (scanPythonLine st.line).references =
        st.targets.map fun m => String.ofList (modulePath m) := by
  have hfeed (s : List Char) : ∀ line ∈ lines s, '\n' ∉ line := fun line hline hmem =>
    absurd (not_isLineBoundary_of_mem_lines hline _ hmem) (by decide)
  have hlayout : ∀ line ∈ l.lines, '\n' ∉ line :=
    fun line hline => hfeed text line (by simp [htext, hline])
  have hone : ∀ line ∈ st.oneLine.lines, '\n' ∉ line := fun line hline =>
    hfeed oneLine line (by simp_all [st.lines_oneLine])
  have hbefore : ∀ line ∈ before, '\n' ∉ line :=
    fun line hline => hfeed text line (by simp [htext, hline])
  have hline : lines oneLine = before ++ (st.oneLine.lines ++ after) := by
    rw [honeLine, st.lines_oneLine, List.singleton_append]
  have hlist := feed_not_mem_listText (feed_not_mem_parts hlayout)
  have hlist' := feed_not_mem_listText (feed_not_mem_parts hone)
  constructor
  · rw [references_scanPython, references_scanPython, logicalLines, logicalLines, htext, hline]
    congr 1
    refine flatMap_logicalLinesFrom_congr ?_ (fun o ho => ?_) hbefore none (by simp)
    · rw [l.flatMap_lines h hlayout, st.oneLine.flatMap_lines st.isHarmless_oneLine hone]
    · rw [l.logicalLinesFrom_lines h, st.oneLine.logicalLinesFrom_lines st.isHarmless_oneLine,
        List.flatMap_cons, List.flatMap_cons, ListImport.importTargets_within ho
          l.lists_listText st.oneLine.lists_listText hlist hlist']
  · have hread := ListImport.importTargets_closed st.lists_list (t := []) (by simp [IsTrailer])
      hlist' List.not_mem_nil rfl
    rw [scanPythonLine, Report.ofReferences, ListImport.line, hread]

/-- Two members of a package, the second under another name. -/
def packageList : ListImport where
  indent := []
  indent_blank := by simp
  base := ⟨['.'], by decide, by decide⟩
  names :=
    [⟨⟨"util".toList, by decide, by decide⟩, none⟩,
      ⟨⟨"models".toList, by decide, by decide⟩, some ⟨"m".toList, by decide, by decide⟩⟩]
  names_ne_nil := by simp

def packageLayout : Layout packageList where
  parts :=
    [⟨[], [], by decide⟩, ⟨"    util,".toList, "  # helpers".toList, by decide⟩,
      ⟨"    models as".toList, [], by decide⟩, ⟨"        m,".toList, " # (all)".toList, by decide⟩]
  parts_ne_nil := by simp
  lists := by decide

theorem references_layout_packageList :
    let text := fedLines ["import os", "from . import (", "    util,  # helpers", "    models as",
      "        m,) # (all)", "import sys"]
    let oneLine := fedLines ["import os", "from . import (util, models as m)", "import sys"]
    packageLayout.IsHarmless ∧
      lines text = ["import os".toList] ++ (packageLayout.lines ++ ["import sys".toList]) ∧
      lines oneLine = ["import os".toList] ++ packageList.line :: ["import sys".toList] ∧
      (scanPython text).references = (scanPython oneLine).references ∧
      (scanPythonLine packageList.line).references = ["./util", "./models"] := by
  have hharmless : packageLayout.IsHarmless := ⟨by decide, by simp [packageLayout]⟩
  have htext : lines (fedLines ["import os", "from . import (", "    util,  # helpers",
      "    models as", "        m,) # (all)", "import sys"]) =
        ["import os".toList] ++ (packageLayout.lines ++ ["import sys".toList]) := by decide
  have honeLine : lines (fedLines ["import os", "from . import (util, models as m)",
      "import sys"]) = ["import os".toList] ++ packageList.line :: ["import sys".toList] := by
    decide
  obtain ⟨hsame, hread⟩ := references_layout packageLayout hharmless _ _ _ _ htext honeLine
  refine ⟨hharmless, htext, honeLine, hsame, ?_⟩
  rw [hread]
  decide

/-- One member of a package. -/
def memberList : ListImport where
  indent := []
  indent_blank := by simp
  base := ⟨['.'], by decide, by decide⟩
  names := [⟨⟨"util".toList, by decide, by decide⟩, none⟩]
  names_ne_nil := by simp

/-- The comment on its first line holds a closing parenthesis. -/
def commentedLayout : Layout memberList where
  parts :=
    [⟨[], "  # (see core)".toList, by decide⟩, ⟨"    util,".toList, [], by decide⟩,
      ⟨[], [], by decide⟩]
  parts_ne_nil := by simp
  lists := by decide

/-- The comment keeps the lines from being joined, and the reference is lost. -/
theorem references_commentedLayout :
    lines (fedLines ["from . import (  # (see core)", "    util,", ")"]) =
        commentedLayout.lines ∧
      lines (fedLines ["from . import (util)"]) = [memberList.line] ∧
      (scanPython (fedLines ["from . import (  # (see core)", "    util,", ")"])).references = [] ∧
      (scanPython (fedLines ["from . import (util)"])).references = ["./util"] :=
  ⟨by decide, by decide, by decide, by decide⟩

end DepGraph
