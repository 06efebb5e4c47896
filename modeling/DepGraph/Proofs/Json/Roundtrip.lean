/-
  DepGraph — reading values that were written.

  However a value is written, reading its text gives the value again: strings are
  read as they were, the blanks between tokens are skipped, and each bracket and
  each comma brings the reader to where the next item is due.  A bare word is
  complete only at the character that follows it, so where the reader stands after
  a value is told by what it does next.

  * `NumberFree`: values that hold no numbers.
  * `Reader.After`: the reader stands after a value.
  * `IsReadBack`: the text of a value, wherever a value is due, brings the reader
    after this value.
  * `isReadBack_array`, `isReadBack_object`: containers, given their contents.
  * `read?_renderAt`: reading the text of a value.
  * `KeysDistinct`: values in whose objects no key comes twice;
    `readSettled?_render` is that these are also read back when of equal keys only
    one counts.
-/
import DepGraph.Proofs.Json.Strings

namespace DepGraph.Json

/-- A value that holds no numbers. -/
inductive NumberFree : Json → Prop
  | null : NumberFree .null
  | bool (b : Bool) : NumberFree (.bool b)
  | string (s : String) : NumberFree (.string s)
  | array {items : List Json} (h : ∀ v ∈ items, NumberFree v) : NumberFree (.array items)
  | object {members : List (String × Json)} (h : ∀ m ∈ members, NumberFree m.2) :
    NumberFree (.object members)

/-! ## Blanks -/

/-- A text of blanks between tokens. -/
def Blank (s : List Char) : Prop := ∀ c ∈ s, isSpace c = true

section
variable (sp : Spacing) (depth : Nat)

theorem blank_newline (n : Nat) : Blank ('\n' :: List.replicate n ' ') := by
  intro c hc
  rcases List.mem_cons.1 hc with rfl | hc
  · rfl
  · rw [List.eq_of_mem_replicate hc]
    rfl

theorem blank_nil : Blank [] := fun _ hc => absurd hc List.not_mem_nil

theorem blank_space : Blank [' '] := fun _ hc => by
  rw [List.mem_singleton.1 hc]
  rfl

theorem blank_opening : Blank (sp.opening depth) := by
  cases sp with
  | compact | spaced => exact blank_nil
  | indented width => exact blank_newline _

theorem blank_closing : Blank (sp.closing depth) := by
  cases sp with
  | compact | spaced => exact blank_nil
  | indented width => exact blank_newline _

theorem between_eq : ∃ ws, sp.between depth = ',' :: ws ∧ Blank ws := by
  cases sp with
  | compact => exact ⟨_, rfl, blank_nil⟩
  | spaced => exact ⟨_, rfl, blank_space⟩
  | indented width => exact ⟨_, rfl, blank_newline _⟩

theorem colon_eq : ∃ ws, sp.colon = ':' :: ws ∧ Blank ws := by
  cases sp with
  | compact => exact ⟨_, rfl, blank_nil⟩
  | spaced | indented => exact ⟨_, rfl, blank_space⟩

end

theorem not_isBare_of_isSpace {c : Char} (h : isSpace c = true) : isBare c = false := by
  simp only [isSpace, Bool.or_eq_true, beq_iff_eq] at h
  rcases h with ((rfl | rfl) | rfl) | rfl <;> rfl

theorem run_blank {ws : List Char} (h : Blank ws) (due : Due) :
    Reader.run ⟨.between, due⟩ ws = some ⟨.between, due⟩ := by
  induction ws with
  | nil => rfl
  | cons c rest ih =>
    have hstep : Reader.step ⟨.between, due⟩ c = some ⟨.between, due⟩ := by
      refine step_of_modeStep (by simp) ?_
      simp only [modeStep, startToken]
      rw [if_pos (h c List.mem_cons_self)]
    rw [Reader.run_cons, hstep, Option.bind_some, ih fun d hd => h d (List.mem_cons_of_mem c hd)]

/-! ## After a value -/

/-- The reader stands after a value: it goes on, and ends, as if the value were
  complete. -/
structure Reader.After (r : Reader) (v : Json) (stack : List Frame) : Prop where
  step : ∀ c, isBare c = false → r.step c = Reader.step ⟨.between, .next v stack⟩ c
  finish : r.finish = Reader.finish ⟨.between, .next v stack⟩

section
variable {r : Reader} {v : Json} {stack : List Frame}

theorem after_next (v : Json) (stack : List Frame) :
    Reader.After ⟨.between, .next v stack⟩ v stack where
  step _ _ := rfl
  finish := rfl

/-- A bare word is complete at what ends it. -/
theorem after_bare {word : List Char} {due : Due} (hword : readBare? word.reverse = some v)
    (hdue : parseStep due (.scalar v) = some (.next v stack)) :
    Reader.After ⟨.bare word, due⟩ v stack where
  step c hc := by
    simp only [Reader.step, lexStep, hc, hword, modeStep]
    cases startToken c with
    | none => rfl
    | some found => simp [List.foldlM, hdue]
  finish := by simp [Reader.finish, lexEnd, hword, List.foldlM, hdue]

namespace Reader.After

theorem run_cons (h : r.After v stack) {c : Char} (hc : isBare c = false) (s : List Char) :
    r.run (c :: s) = Reader.run ⟨.between, .next v stack⟩ (c :: s) := by
  rw [Reader.run_cons, Reader.run_cons, h.step c hc]

/-- Blanks and a mark after a value. -/
theorem run_mark (h : r.After v stack) {ws : List Char} (hws : Blank ws) {c : Char} {t : Token}
    {due : Due} (hc : isBare c = false) (hmark : startToken c = some (some t, .between))
    (hdue : parseStep (.next v stack) t = some due) :
    r.run (ws ++ [c]) = some ⟨.between, due⟩ := by
  have hrun : Reader.run ⟨.between, .next v stack⟩ (ws ++ [c]) = some ⟨.between, due⟩ := by
    have hstep : Reader.step ⟨.between, .next v stack⟩ c = some ⟨.between, due⟩ :=
      step_of_modeStep_token (by simp) hmark hdue
    rw [Reader.run_append_of_run (run_blank hws _), Reader.run_cons, hstep]
    rfl
  cases ws with
  | nil => exact (h.run_cons hc []).trans hrun
  | cons w rest =>
    exact (h.run_cons (not_isBare_of_isSpace (hws w List.mem_cons_self)) _).trans hrun

end Reader.After

end

/-- Wherever a value is due, the text of this value brings the reader after it. -/
def IsReadBack (st : Style) (v : Json) : Prop :=
  ∀ depth stack orClose, ∃ r : Reader,
    Reader.run ⟨.between, .value stack orClose⟩ (renderAt st depth v) = some r ∧ r.After v stack

section
variable {st : Style}

/-! ## Arrays -/

/-- The later items of an array, and its end. -/
theorem run_renderItems {rest : List Json} (hrest : ∀ v ∈ rest, IsReadBack st v) {r : Reader}
    {v : Json} {done : List Json} {stack : List Frame} (h : r.After v (.items done :: stack))
    (depth : Nat) :
    r.run (renderItems st depth rest ++ (st.spacing.closing depth ++ [']'])) =
      some ⟨.between, .next (.array ((v :: done).reverse ++ rest)) stack⟩ := by
  induction rest generalizing r v done with
  | nil =>
    rw [renderItems, List.nil_append, List.append_nil]
    exact h.run_mark (blank_closing _ _) rfl rfl rfl
  | cons w rest ih =>
    obtain ⟨ws, hbetween, hws⟩ := between_eq st.spacing depth
    have hcomma : r.run [','] = some ⟨.between, .value (.items (v :: done) :: stack) false⟩ :=
      h.run_mark blank_nil rfl rfl rfl
    obtain ⟨r', hrun, hafter⟩ :=
      hrest w List.mem_cons_self (depth + 1) (.items (v :: done) :: stack) false
    have htext : renderItems st depth (w :: rest) ++ (st.spacing.closing depth ++ [']']) =
        [','] ++ (ws ++ (renderAt st (depth + 1) w ++
          (renderItems st depth rest ++ (st.spacing.closing depth ++ [']'])))) := by
      simp [renderItems, hbetween]
    rw [htext, Reader.run_append_of_run hcomma, Reader.run_append_of_run (run_blank hws _),
      Reader.run_append_of_run hrun, ih (fun v hv => hrest v (List.mem_cons_of_mem w hv)) hafter]
    simp

theorem isReadBack_array {items : List Json} (h : ∀ v ∈ items, IsReadBack st v) :
    IsReadBack st (.array items) := by
  intro depth stack orClose
  refine ⟨⟨.between, .next (.array items) stack⟩, ?_, after_next _ _⟩
  have hopen : Reader.run ⟨.between, .value stack orClose⟩ ['['] =
      some ⟨.between, .value (.items [] :: stack) true⟩ :=
    Reader.run_singleton (step_of_modeStep_token (by simp) rfl rfl)
  cases items with
  | nil => exact (Reader.run_append_of_run hopen).trans rfl
  | cons v rest =>
    obtain ⟨r, hrun, hafter⟩ := h v List.mem_cons_self (depth + 1) (.items [] :: stack) true
    have htext : renderAt st depth (.array (v :: rest)) =
        ['['] ++ (st.spacing.opening depth ++ (renderAt st (depth + 1) v ++
          (renderItems st depth rest ++ (st.spacing.closing depth ++ [']'])))) := by
      simp [renderAt]
    rw [htext, Reader.run_append_of_run hopen,
      Reader.run_append_of_run (run_blank (blank_opening _ _) _), Reader.run_append_of_run hrun,
      run_renderItems (fun v hv => h v (List.mem_cons_of_mem _ hv)) hafter]
    rfl

/-! ## Objects -/

/-- A key and its value. -/
theorem run_member {v : Json} (h : IsReadBack st v) (k : String) (done : List (String × Json))
    (stack : List Frame) (orClose : Bool) (depth : Nat) :
    ∃ r : Reader, Reader.run ⟨.between, .key done stack orClose⟩
        (renderString st.asciiOnly k ++ (st.spacing.colon ++ renderAt st depth v)) = some r ∧
      r.After v (.members done k :: stack) := by
  obtain ⟨ws, hcolon, hws⟩ := colon_eq st.spacing
  obtain ⟨r, hrun, hafter⟩ := h depth (.members done k :: stack) false
  have hkey : Reader.run ⟨.between, .key done stack orClose⟩ (renderString st.asciiOnly k) =
      some ⟨.between, .colon done k stack⟩ := run_renderString _ rfl
  have hstep : Reader.step ⟨.between, .colon done k stack⟩ ':' =
      some ⟨.between, .value (.members done k :: stack) false⟩ :=
    step_of_modeStep_token (by simp) rfl rfl
  refine ⟨r, ?_, hafter⟩
  rw [Reader.run_append_of_run hkey, hcolon, List.cons_append, Reader.run_cons, hstep,
    Option.bind_some, Reader.run_append_of_run (run_blank hws _), hrun]

/-- The later members of an object, and its end. -/
theorem run_renderMembers {rest : List (String × Json)} (hrest : ∀ m ∈ rest, IsReadBack st m.2)
    {r : Reader} {v : Json} {k : String} {done : List (String × Json)} {stack : List Frame}
    (h : r.After v (.members done k :: stack)) (depth : Nat) :
    r.run (renderMembers st depth rest ++ (st.spacing.closing depth ++ ['}'])) =
      some ⟨.between, .next (.object (((k, v) :: done).reverse ++ rest)) stack⟩ := by
  induction rest generalizing r v k done with
  | nil =>
    rw [renderMembers, List.nil_append, List.append_nil]
    exact h.run_mark (blank_closing _ _) rfl rfl rfl
  | cons m rest ih =>
    obtain ⟨k', w⟩ := m
    obtain ⟨ws, hbetween, hws⟩ := between_eq st.spacing depth
    have hcomma : r.run [','] = some ⟨.between, .key ((k, v) :: done) stack false⟩ :=
      h.run_mark blank_nil rfl rfl rfl
    obtain ⟨r', hrun, hafter⟩ :=
      run_member (hrest _ List.mem_cons_self) k' ((k, v) :: done) stack false (depth + 1)
    have htext : renderMembers st depth ((k', w) :: rest) ++ (st.spacing.closing depth ++ ['}']) =
        [','] ++ (ws ++ ((renderString st.asciiOnly k' ++
          (st.spacing.colon ++ renderAt st (depth + 1) w)) ++
          (renderMembers st depth rest ++ (st.spacing.closing depth ++ ['}'])))) := by
      simp [renderMembers, hbetween]
    rw [htext, Reader.run_append_of_run hcomma, Reader.run_append_of_run (run_blank hws _),
      Reader.run_append_of_run hrun, ih (fun m hm => hrest m (List.mem_cons_of_mem _ hm)) hafter]
    simp

theorem isReadBack_object {members : List (String × Json)} (h : ∀ m ∈ members, IsReadBack st m.2) :
    IsReadBack st (.object members) := by
  intro depth stack orClose
  refine ⟨⟨.between, .next (.object members) stack⟩, ?_, after_next _ _⟩
  have hopen : Reader.run ⟨.between, .value stack orClose⟩ ['{'] =
      some ⟨.between, .key [] stack true⟩ :=
    Reader.run_singleton (step_of_modeStep_token (by simp) rfl rfl)
  cases members with
  | nil => exact (Reader.run_append_of_run hopen).trans rfl
  | cons m rest =>
    obtain ⟨k, v⟩ := m
    obtain ⟨r, hrun, hafter⟩ := run_member (h _ List.mem_cons_self) k [] stack true (depth + 1)
    have htext : renderAt st depth (.object ((k, v) :: rest)) =
        ['{'] ++ (st.spacing.opening depth ++ ((renderString st.asciiOnly k ++
          (st.spacing.colon ++ renderAt st (depth + 1) v)) ++
          (renderMembers st depth rest ++ (st.spacing.closing depth ++ ['}'])))) := by
      simp [renderAt]
    rw [htext, Reader.run_append_of_run hopen,
      Reader.run_append_of_run (run_blank (blank_opening _ _) _), Reader.run_append_of_run hrun,
      run_renderMembers (fun m hm => h m (List.mem_cons_of_mem _ hm)) hafter]
    rfl

end

/-! ## Values -/

/-- A value that is written as a bare word. -/
theorem isReadBack_of_word {st : Style} {v : Json} {word : List Char}
    (htext : ∀ depth, renderAt st depth v = word)
    (hrun : ∀ due, Reader.run ⟨.between, due⟩ word = some ⟨.bare word.reverse, due⟩)
    (hword : readBare? word = some v) : IsReadBack st v := by
  intro depth stack orClose
  refine ⟨⟨.bare word.reverse, .value stack orClose⟩, ?_, after_bare ?_ rfl⟩
  · rw [htext, hrun]
  · rw [List.reverse_reverse, hword]

theorem isReadBack_of_numberFree (st : Style) {v : Json} (h : NumberFree v) : IsReadBack st v := by
  induction h with
  | null => exact isReadBack_of_word (fun _ => rfl) (fun _ => rfl) rfl
  | bool b =>
    cases b with
    | false => exact isReadBack_of_word (fun _ => rfl) (fun _ => rfl) rfl
    | true => exact isReadBack_of_word (fun _ => rfl) (fun _ => rfl) rfl
  | string s =>
    exact fun depth stack orClose =>
      ⟨⟨.between, .next (.string s) stack⟩, run_renderString _ rfl, after_next _ _⟩
  | array _ ih => exact isReadBack_array ih
  | object _ ih => exact isReadBack_object ih

/-- **Reading the text of a value gives the value**, however it is written. -/
theorem read?_renderAt (st : Style) (depth : Nat) {v : Json} (h : NumberFree v) :
    read? (renderAt st depth v) = some v := by
  obtain ⟨r, hrun, hafter⟩ := isReadBack_of_numberFree st h depth [] false
  have hread : read? (renderAt st depth v) =
      (Reader.run ⟨.between, .value [] false⟩ (renderAt st depth v)).bind Reader.finish := rfl
  rw [hread, hrun, Option.bind_some, hafter.finish]
  rfl

/-! ## Distinct keys -/

/-- A value in whose objects no key comes twice. -/
inductive KeysDistinct : Json → Prop
  | null : KeysDistinct .null
  | bool (b : Bool) : KeysDistinct (.bool b)
  | int (n : Int) : KeysDistinct (.int n)
  | float (x : Decimal.Binary) : KeysDistinct (.float x)
  | string (s : String) : KeysDistinct (.string s)
  | array {items : List Json} (h : ∀ v ∈ items, KeysDistinct v) : KeysDistinct (.array items)
  | object {members : List (String × Json)} (hkeys : (members.map Prod.fst).Nodup)
    (h : ∀ m ∈ members, KeysDistinct m.2) : KeysDistinct (.object members)

theorem settledItems_eq_self {items : List Json} (h : ∀ v ∈ items, v.settled = v) :
    settledItems items = items := by
  induction items with
  | nil => rfl
  | cons v rest ih =>
    rw [List.forall_mem_cons] at h
    rw [settledItems, h.1, ih h.2]

theorem settledMembers_eq_self {members : List (String × Json)}
    (h : ∀ m ∈ members, m.2.settled = m.2) : settledMembers members = members := by
  induction members with
  | nil => rfl
  | cons m rest ih =>
    rw [List.forall_mem_cons] at h
    rw [settledMembers, h.1, ih h.2]

/-- Where no key comes twice, there is nothing to settle. -/
theorem settled_eq_self {v : Json} (h : KeysDistinct v) : v.settled = v := by
  induction h with
  | null | bool | int | float | string => rfl
  | array _ ih => rw [settled, settledItems_eq_self ih]
  | @object members hkeys _ ih =>
    have hmap : memberMap members = ⟨members, hkeys⟩ := OrderedMap.ofList_entries ⟨members, hkeys⟩
    rw [settled, settledMembers_eq_self ih, hmap]

/-- Reading the text of a value without equal keys gives the value, with the order of its
  keys. -/
theorem readSettled?_render (st : Style) {v : Json} (hfree : NumberFree v)
    (hkeys : KeysDistinct v) : readSettled? (v.render st).toList = some v := by
  rw [readSettled?, render, String.toList_ofList, read?_renderAt st 0 hfree, Option.map_some,
    settled_eq_self hkeys]

end DepGraph.Json
