/-
  DepGraph — the first line of an entry of yarn's lock file.

  The line is cut at its first colon, and what is before it at its commas; each piece is
  trimmed and taken out of its quotes.  A colon within quotes is cut at just as well.

  * `headerPackages_listing_iff`: when the packages listed are read as they were meant.
  * `trim_listing_of_readable`: then nothing of the line is trimmed away.
  * `not_heading_listing`: the line is never taken for the heading of a block.
-/
import DepGraph.Proofs.Language.YarnLock.Written

namespace DepGraph

open DepGraph.Text

/-! ## The packages listed -/

theorem trim_cons_blank {c : Char} (hc : isBlank c = true) (s : List Char) :
    trim (c :: s) = trim s := by
  rw [trim, trimLeft, List.dropWhile_cons_of_pos hc]
  rfl

/-- Each piece is trimmed, so blanks in front of the first one do not matter. -/
theorem headerPackages_blanks {b : List Char} (hb : ∀ c ∈ b, isBlank c = true) (h : List Char) :
    headerPackages (b ++ h) = headerPackages h := by
  induction b with
  | nil => rfl
  | cons c b ih =>
    rw [List.forall_mem_cons] at hb
    have hcolon : (c != ':') = true := bne_iff_ne.2 (ne_of_isBlank hb.1 rfl)
    have hcomma : c ≠ ',' := ne_of_isBlank hb.1 rfl
    rw [← ih hb.2, List.cons_append, headerPackages, headerPackages,
      List.takeWhile_cons_of_pos (p := (· != ':')) hcolon, segments_singleton, segments_singleton,
      List.splitOn_cons_eq_if_modifyHead, if_neg (by simpa using hcomma)]
    obtain ⟨first, more, hsplit⟩ := List.exists_cons_of_ne_nil
      (List.splitOn_ne_nil ',' ((b ++ h).takeWhile (· != ':')))
    rw [hsplit, List.modifyHead_cons, List.map_cons, List.map_cons, trim_cons_blank hb.1]

section
variable {p : List Char}

theorem headerPackages_comma (hp : ∀ c ∈ p, c ≠ ',' ∧ c ≠ ':') (h : List Char) :
    headerPackages (p ++ ',' :: h) = unquote (trim p) :: headerPackages h := by
  have hcolon : ∀ c ∈ p, (c != ':') = true := fun c hc => by simpa using (hp c hc).2
  have hcomma : p.splitOn ',' = [p] :=
    List.splitOnP_eq_singleton fun c hc => by simpa using (hp c hc).1
  rw [headerPackages, headerPackages, List.takeWhile_append_of_pos hcolon,
    List.takeWhile_cons_of_pos (by decide), segments_singleton, segments_singleton,
    List.splitOn_append_cons_self, hcomma]
  rfl

theorem headerPackages_colon (hp : ∀ c ∈ p, c ≠ ',' ∧ c ≠ ':') (h : List Char) :
    headerPackages (p ++ ':' :: h) = [unquote (trim p)] := by
  have hcolon : ∀ c ∈ p, (c != ':') = true := fun c hc => by simpa using (hp c hc).2
  have hcomma : p.splitOn ',' = [p] :=
    List.splitOnP_eq_singleton fun c hc => by simpa using (hp c hc).1
  rw [headerPackages, List.takeWhile_append_of_pos hcolon,
    List.takeWhile_cons_of_neg (by decide), List.append_nil, segments_singleton, hcomma]
  rfl

end

namespace ListedSpec

variable {s : ListedSpec}

/-- A text without quotes has nothing in it that needs them. -/
theorem colon_not_mem_text (h : s.quoted = false) : ':' ∉ s.text := by
  intro hmem
  have := s.quotes (by simp [needsQuotes, hmem])
  simp [h] at this

theorem plain_chars (h : ':' ∉ s.text) : ∀ c ∈ s.chars, c ≠ ',' ∧ c ≠ ':' := by
  have htext : ∀ c ∈ s.text, c ≠ ',' ∧ c ≠ ':' :=
    fun c hc => ⟨(s.plain_text c hc).2, fun heq => h (heq ▸ hc)⟩
  intro c hc
  rw [chars] at hc
  cases hq : s.quoted with
  | false => exact htext c (by rwa [hq] at hc)
  | true =>
    rw [hq, written_true, List.mem_cons, List.mem_append, List.mem_singleton] at hc
    rcases hc with rfl | hc | rfl
    · decide
    · exact htext c hc
    · decide

/-- Without a colon in it, a package is read as it was meant unless blanks are trimmed. -/
theorem unquote_trim_chars (h : ':' ∉ s.text) :
    unquote (trim s.chars) = s.text ↔ s.IsReadable := by
  rw [IsReadable, and_iff_right h, chars]
  cases s.quoted with
  | false =>
    have hquote : '"' ∉ trim s.text := fun hmem => s.quote_not_mem_text (trim_subset _ hmem)
    rw [written_false, unquote_of_not_mem hquote]
    simp
  | true =>
    rw [trim_written_true, unquote_written s.quote_not_mem_text]
    simp

/-- With a colon in it, a package is cut there, and keeps the quote that opens it. -/
theorem headerPackages_cut (h : ':' ∈ s.text) (rest : List Char) :
    ∃ cut, headerPackages (s.chars ++ rest) = [cut] ∧ '"' ∈ cut := by
  have hquoted : s.quoted = true := by
    by_contra hq
    exact colon_not_mem_text (by simpa using hq) h
  obtain ⟨u, v, huv, hu⟩ := List.eq_append_cons_of_mem h
  have hquote : '"' ∉ u := fun hmem => s.quote_not_mem_text (by simp [huv, hmem])
  have hcomma : ∀ c ∈ '"' :: u, c ≠ ',' ∧ c ≠ ':' := by
    rw [List.forall_mem_cons]
    refine ⟨by decide, fun c hc => ⟨(s.plain_text c (by simp [huv, hc])).2, ?_⟩⟩
    rintro rfl
    exact hu hc
  have hchars : s.chars ++ rest = ('"' :: u) ++ ':' :: (v ++ '"' :: rest) := by
    simp [chars, hquoted, written, huv]
  have htrim : trim ('"' :: u) = '"' :: trimRight u := trim_append [] (by decide)
  have hright : '"' ∉ trimRight u := fun hmem => hquote (trimRight_subset u hmem)
  refine ⟨'"' :: trimRight u, ?_, List.mem_cons_self⟩
  rw [hchars, headerPackages_colon hcomma, htrim, unquote_open hright]

end ListedSpec

theorem listing_singleton (s : ListedSpec) : listing [s] = s.chars ++ [':'] := by
  simp [listing]

theorem listing_cons {specs : List ListedSpec} (s : ListedSpec) (h : specs ≠ []) :
    listing (s :: specs) = s.chars ++ ',' :: ' ' :: listing specs := by
  obtain ⟨t, rest, rfl⟩ := List.exists_cons_of_ne_nil h
  simp [listing, List.intercalate_cons_cons]

/-- The packages listed are read as they were meant iff they are readable; in any case no
  more of them are read. -/
theorem headerPackages_listing_iff {specs : List ListedSpec} (hne : specs ≠ []) :
    (headerPackages (listing specs)).length ≤ specs.length ∧
      (headerPackages (listing specs) = specs.map (·.text) ↔ ∀ s ∈ specs, s.IsReadable) := by
  induction specs with
  | nil => exact absurd rfl hne
  | cons s specs ih =>
    rw [List.forall_mem_cons, List.map_cons]
    by_cases hs : ':' ∈ s.text
    · have hkeys : ∃ cut, headerPackages (listing (s :: specs)) = [cut] ∧ '"' ∈ cut := by
        cases specs with
        | nil => exact listing_singleton s ▸ s.headerPackages_cut hs _
        | cons t specs => exact listing_cons s (List.cons_ne_nil t specs) ▸ s.headerPackages_cut hs _
      obtain ⟨cut, hcut, hquote⟩ := hkeys
      rw [hcut]
      refine ⟨by simp, iff_of_false (fun heq => ?_) fun hread => hread.1.1 hs⟩
      rw [(List.cons.inj heq).1] at hquote
      exact s.quote_not_mem_text hquote
    · have hplain := s.plain_chars hs
      cases specs with
      | nil =>
        rw [listing_singleton, headerPackages_colon hplain]
        simp [s.unquote_trim_chars hs]
      | cons t specs =>
        obtain ⟨hle, hiff⟩ := ih (List.cons_ne_nil t specs)
        have hblank := headerPackages_blanks (b := [' ']) (by decide) (listing (t :: specs))
        rw [List.singleton_append] at hblank
        rw [listing_cons s (List.cons_ne_nil t specs), headerPackages_comma hplain, hblank]
        refine ⟨Nat.succ_le_succ hle, ?_⟩
        rw [List.cons.injEq, hiff, s.unquote_trim_chars hs]

/-! ## Trimming the first line -/

theorem trim_listing (specs : List ListedSpec) :
    trim (listing specs) =
      trimLeft ([',', ' '].intercalate (specs.map ListedSpec.chars)) ++ [':'] :=
  trim_append _ (by decide)

theorem headerPackages_trim_listing (specs : List ListedSpec) :
    headerPackages (trim (listing specs)) = headerPackages (listing specs) := by
  obtain ⟨b, hb, heq⟩ := exists_trimLeft ([',', ' '].intercalate (specs.map ListedSpec.chars))
  rw [trim_listing, listing]
  conv_rhs => rw [heq, List.append_assoc, headerPackages_blanks hb]

theorem exists_listing_eq {specs : List ListedSpec} (h : specs ≠ []) :
    ∃ s ∈ specs, ∃ rest, listing specs = s.chars ++ rest := by
  obtain ⟨s, specs, rfl⟩ := List.exists_cons_of_ne_nil h
  refine ⟨s, List.mem_cons_self, ?_⟩
  cases specs with
  | nil => exact ⟨_, listing_singleton s⟩
  | cons t specs => exact ⟨_, listing_cons s (List.cons_ne_nil t specs)⟩

/-- If the packages are readable, nothing is trimmed. -/
theorem trim_listing_of_readable {specs : List ListedSpec} (hne : specs ≠ [])
    (h : ∀ s ∈ specs, s.IsReadable) : trim (listing specs) = listing specs := by
  obtain ⟨s, hs, rest, heq⟩ := exists_listing_eq hne
  have hhead : ∀ c ∈ (listing specs).head?, isBlank c = false := by
    intro c hc
    rw [heq, ListedSpec.chars] at hc
    cases hq : s.quoted with
    | true =>
      obtain rfl : '"' = c := by simpa [hq, written] using hc
      decide
    | false =>
      obtain ⟨d, more, htext⟩ := List.exists_cons_of_ne_nil s.text_ne_nil
      have hd := head_of_trim_eq_self ((h s hs).2 hq) d (by simp [htext])
      obtain rfl : d = c := by simpa [hq, written, htext] using hc
      exact hd
  rw [trim, trimLeft_of_head hhead, listing]
  exact trimRight_concat _ (by decide)

/-- The first line of an entry is no heading of a block: before its first colon there is a
  quote or an `@`. -/
theorem not_heading_listing {specs : List ListedSpec} (hne : specs ≠ []) :
    ¬ blockHeading <+: trim (listing specs) := by
  obtain ⟨s, -, rest, heq⟩ := exists_listing_eq hne
  have hstop (x : List Char) (c : Char) (y : List Char) (hx : ':' ∉ x) (hc : c ∉ blockHeading)
      (hcolon : c ≠ ':') : ¬ blockHeading <+: x ++ c :: y := by
    intro hpre
    have hx' : x ++ [c] <+: x ++ c :: y := ⟨y, by simp⟩
    rcases List.prefix_or_prefix_of_prefix hpre hx' with h | h
    · have hmem : ':' ∈ x ++ [c] := h.subset (by decide)
      simp [hx, Ne.symm hcolon] at hmem
    · exact hc (h.subset (by simp))
  rw [heq, ListedSpec.chars]
  cases hq : s.quoted with
  | true =>
    have htrim := trim_append (c := '"') (y := s.text ++ '"' :: rest) [] (by decide)
    have hchars : written true s.text ++ rest = [] ++ '"' :: (s.text ++ '"' :: rest) := by
      simp [written]
    rw [hchars, htrim]
    exact hstop _ _ _ List.not_mem_nil (by decide) (by decide)
  | false =>
    have hname : ':' ∉ trimLeft s.name.text := fun hmem =>
      ListedSpec.colon_not_mem_text hq (List.mem_append_left _ (trimLeft_subset _ hmem))
    have hchars : written false s.text ++ rest = s.name.text ++ '@' :: (s.range.text ++ rest) := by
      simp [written, PackageSpec.text]
    rw [hchars, trim_append (c := '@') _ (by decide)]
    exact hstop _ _ _ hname (by decide) (by decide)

end DepGraph
