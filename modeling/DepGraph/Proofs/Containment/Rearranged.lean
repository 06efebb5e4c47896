/-
  DepGraph — trees up to the order of siblings.

  Two trees are rearrangements of each other if each level of one has the entries
  of the corresponding level of the other, in any order.  Trees without a name
  twice on a level are rearrangements as soon as the same entries stand at the
  same places.

  * `Rearranged`: the same tree, but for the order on its levels.
  * `Rearranged.holds_iff`, `Rearranged.distinct`: what rearranging keeps.
  * `rearranged_of_holds_iff`: places determine a tree up to rearrangement.
-/
import DepGraph.Proofs.Containment.Places

namespace DepGraph.Containment

/-- The same entries on every level, in any order. -/
inductive Rearranged : Containment → Containment → Prop
  | nil : Rearranged .nil .nil
  | leaf (name : String) {rest rest' : Containment} :
      Rearranged rest rest' → Rearranged (.leaf name rest) (.leaf name rest')
  | inner (name : String) {below below' rest rest' : Containment} :
      Rearranged below below' → Rearranged rest rest' →
        Rearranged (.inner name below rest) (.inner name below' rest')
  | swap (m n : String) (o o' : Option Containment) (rest : Containment) :
      Rearranged (cons m o (cons n o' rest)) (cons n o' (cons m o rest))
  | trans {t u v : Containment} : Rearranged t u → Rearranged u v → Rearranged t v

theorem Rearranged.refl (t : Containment) : Rearranged t t := by
  induction t with
  | nil => exact .nil
  | leaf name rest ih => exact .leaf name ih
  | inner name below rest ihb ihr => exact .inner name ihb ihr

section
variable {t u rest : Containment} {above : List String} {n k : String} {inner : Bool}
  {o : Option Containment}

@[simp] theorem heads_cons : (cons n o rest).heads = n :: rest.heads := by
  cases o <;> rfl

theorem distinct_cons : (cons n o rest).Distinct ↔
    n ∉ rest.heads ∧ (∀ b ∈ o, b.Distinct) ∧ rest.Distinct := by
  cases o <;> simp [cons, Distinct]

/-! ## What rearranging keeps -/

theorem Rearranged.holds_iff (h : Rearranged t u) :
    t.Holds above k inner ↔ u.Holds above k inner := by
  induction h generalizing above with
  | nil => rfl
  | leaf name _ ih => rw [holds_leaf, holds_leaf, ih]
  | inner name _ _ ihb ihr => simp only [holds_inner, ihb, ihr]
  | swap m n o o' rest =>
    -- both sides name the cases of the two entries and of the rest
    simp only [holds_cons]
    exact Iff.of_eq (by ac_rfl)
  | trans _ _ ih₁ ih₂ => rw [ih₁, ih₂]

theorem Rearranged.mem_heads_iff (h : Rearranged t u) : n ∈ t.heads ↔ n ∈ u.heads := by
  rw [mem_heads, mem_heads, h.holds_iff]

theorem Rearranged.distinct (h : Rearranged t u) (ht : t.Distinct) : u.Distinct := by
  induction h with
  | nil => trivial
  | leaf name hr ih =>
    obtain ⟨hn, hrest⟩ := ht
    exact ⟨fun hmem => hn (hr.mem_heads_iff.2 hmem), ih hrest⟩
  | inner name _ hr ihb ihr =>
    obtain ⟨hn, hbelow, hrest⟩ := ht
    exact ⟨fun hmem => hn (hr.mem_heads_iff.2 hmem), ihb hbelow, ihr hrest⟩
  | swap m n o o' rest =>
    simp only [distinct_cons, heads_cons, List.mem_cons, not_or] at ht ⊢
    obtain ⟨⟨hmn, hm⟩, ho, hn, ho', hrest⟩ := ht
    exact ⟨⟨Ne.symm hmn, hn⟩, ho', hm, ho, hrest⟩
  | trans _ _ ih₁ ih₂ => exact ih₂ (ih₁ ht)

/-- An entry of the first level can be moved to the front. -/
theorem exists_rearranged_cons (h : n ∈ t.heads) : ∃ o rest, Rearranged t (cons n o rest) := by
  induction t with
  | nil => exact absurd h List.not_mem_nil
  | leaf m rest ih =>
    rcases List.mem_cons.1 h with rfl | h
    · exact ⟨none, rest, .refl _⟩
    · obtain ⟨o, rest', hr⟩ := ih h
      exact ⟨o, .leaf m rest', (hr.leaf m).trans (.swap m n none o rest')⟩
  | inner m below rest _ ih =>
    rcases List.mem_cons.1 h with rfl | h
    · exact ⟨some below, rest, .refl _⟩
    · obtain ⟨o, rest', hr⟩ := ih h
      exact ⟨o, .inner m below rest',
        (Rearranged.inner m (.refl below) hr).trans (.swap m n (some below) o rest')⟩

/-! ## An entry in front, seen from its places -/

theorem Holds.head_ne (hn : n ∉ rest.heads) (h : rest.Holds above k inner) :
    (above ++ [k]).head? ≠ some n := by
  intro heq
  obtain ⟨m, hm, hhead⟩ := h.head_mem
  obtain rfl : m = n := Option.some.inj (hhead.symm.trans heq)
  exact hn hm

theorem holds_cons_self (hn : n ∉ rest.heads) :
    (cons n o rest).Holds [] n true ↔ o.isSome = true := by
  rw [holds_cons]
  constructor
  · rintro (⟨-, -, h⟩ | ⟨_, h, -⟩ | h)
    · exact h rfl
    · cases h
    · exact absurd rfl (h.head_ne hn)
  · exact fun h => .inl ⟨rfl, rfl, fun _ => h⟩

theorem holds_cons_below (hn : n ∉ rest.heads) :
    (cons n o rest).Holds (n :: above) k inner ↔ ∃ b ∈ o, b.Holds above k inner := by
  rw [holds_cons]
  constructor
  · rintro (⟨h, -⟩ | ⟨_, heq, h⟩ | h)
    · cases h
    · obtain ⟨-, rfl⟩ := List.cons.inj heq
      exact h
    · exact absurd rfl (h.head_ne hn)
  · exact fun h => .inr (.inl ⟨above, rfl, h⟩)

theorem holds_rest_iff (hn : n ∉ rest.heads) :
    rest.Holds above k inner ↔
      (cons n o rest).Holds above k inner ∧ (above ++ [k]).head? ≠ some n := by
  rw [holds_cons]
  constructor
  · exact fun h => ⟨.inr (.inr h), h.head_ne hn⟩
  · rintro ⟨⟨rfl, rfl, -⟩ | ⟨_, rfl, -⟩ | h, hne⟩
    · exact absurd rfl hne
    · exact absurd rfl hne
    · exact h

end

/-- What stands at the same places as an entry in front and the rest of a level is
  such an entry and such a rest, rearranged. -/
theorem exists_cons_of_holds_iff {u rest : Containment} {n : String} {o : Option Containment}
    (hn : n ∉ rest.heads) (hu : u.Distinct)
    (h : ∀ above k inner, u.Holds above k inner ↔ (cons n o rest).Holds above k inner) :
    ∃ o' rest', Rearranged u (cons n o' rest') ∧ (cons n o' rest').Distinct ∧
      (o'.isSome = true ↔ o.isSome = true) ∧
      (∀ above k inner, (∃ b ∈ o', b.Holds above k inner) ↔ ∃ b ∈ o, b.Holds above k inner) ∧
      ∀ above k inner, rest'.Holds above k inner ↔ rest.Holds above k inner := by
  have hfront : n ∈ u.heads := by
    rw [mem_heads, h, ← mem_heads, heads_cons]
    exact List.mem_cons_self
  obtain ⟨o', rest', hr⟩ := exists_rearranged_cons hfront
  have hd := hr.distinct hu
  obtain ⟨hn', -, -⟩ := distinct_cons.1 hd
  have h' : ∀ above k inner,
      (cons n o' rest').Holds above k inner ↔ (cons n o rest).Holds above k inner :=
    fun above k inner => hr.holds_iff.symm.trans (h above k inner)
  refine ⟨o', rest', hr, hd, ?_, fun above k inner => ?_, fun above k inner => ?_⟩
  · rw [← holds_cons_self hn', h', holds_cons_self hn]
  · rw [← holds_cons_below hn', h', holds_cons_below hn]
  · rw [holds_rest_iff hn' (o := o'), h', ← holds_rest_iff hn]

/-- **Places determine a tree**, but for the order of siblings. -/
theorem rearranged_of_holds_iff {t u : Containment} (ht : t.Distinct) (hu : u.Distinct)
    (h : ∀ above k inner, u.Holds above k inner ↔ t.Holds above k inner) : Rearranged u t := by
  induction t generalizing u with
  | nil =>
    have hheads : ∀ n, n ∉ u.heads := fun n hn => not_holds_nil ((h _ _ _).1 (mem_heads.1 hn))
    cases u with
    | nil => exact .nil
    | leaf n rest => exact absurd List.mem_cons_self (hheads n)
    | inner n below rest => exact absurd List.mem_cons_self (hheads n)
  | leaf n rest ih =>
    obtain ⟨hn, hrest⟩ := ht
    obtain ⟨o', rest', hr, hd, hsome, -, hholds⟩ :=
      exists_cons_of_holds_iff (o := none) hn hu h
    obtain rfl : o' = none := by simpa using hsome
    exact hr.trans (.leaf n (ih hrest (distinct_cons.1 hd).2.2 hholds))
  | inner n below rest ihb ihr =>
    obtain ⟨hn, hbelow, hrest⟩ := ht
    obtain ⟨o', rest', hr, hd, hsome, hin, hholds⟩ :=
      exists_cons_of_holds_iff (o := some below) hn hu h
    obtain ⟨below', rfl⟩ := Option.isSome_iff_exists.1 (hsome.2 rfl)
    obtain ⟨-, hbelow', hrest'⟩ := distinct_cons.1 hd
    have hin' : ∀ above k inner, below'.Holds above k inner ↔ below.Holds above k inner := by
      simpa using hin
    exact hr.trans (.inner n (ihb hbelow (hbelow' below' rfl) hin') (ihr hrest hrest' hholds))

end DepGraph.Containment
