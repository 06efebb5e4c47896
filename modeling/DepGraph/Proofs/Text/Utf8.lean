/-
  DepGraph — texts survive UTF-8.

  A character is written as a first byte and some that follow it.  The first byte
  fixes how many follow and, for the least and the greatest codes, the range of the
  next one; the bytes of a character lie in these ranges.  So reading the bytes of a
  text finds its characters again.  And bytes in these ranges are those of the
  character that they are read as, so nothing but the bytes of a text is read without
  a fault.

  * `Unfinished.Awaits`: what may follow the bytes of a character that were read.
  * `begin_two`, `begin_three`, `begin_four`: reading the first byte.
  * `piecesFrom_last`, `piecesFrom_next`: reading a byte that follows.
  * `piecesFrom_encodeChar`: reading the bytes of a character.
  * `decode_encode`: reading the bytes of a text.
  * `Begun`: what a first byte fixes; `Begun.exists_char` says what follows it.
  * `decode_eq_ok_iff`: the bytes that are read as a text.
-/
import DepGraph.Proofs.Attempt
import DepGraph.Text.Utf8

namespace DepGraph.Text.Utf8

open Attempt

/-- The character of which bytes were read has `missing` bytes to come and the code
  `code` so far; it goes on with a byte whose last six bits pass a test. -/
structure Unfinished.Awaits (p : Unfinished) (missing code : Nat) (next : Nat → Prop) : Prop where
  missing : p.missing = missing
  code : p.code = code
  admits : ∀ y < 64, next y → p.low ≤ y + 0x80 ∧ y + 0x80 ≤ p.high

theorem toNat_byte {x : Nat} (h : x < 256) : (UInt8.ofNat x).toNat = x := by
  rw [UInt8.toNat_ofNat', Nat.mod_eq_of_lt h]

/-! ## The first byte -/

section
variable (pos : Nat) {x : Nat}

theorem begin_one (h : x < 0x80) : begin pos (UInt8.ofNat x) = .inl (.char (Char.ofNat x)) := by
  have hn : (UInt8.ofNat x).toNat = x := toNat_byte (by omega)
  simp only [begin, hn, if_pos h]

theorem begin_two (h : 2 ≤ x) (hx : x < 32) :
    ∃ p, begin pos (UInt8.ofNat (x + 0xC0)) = .inr p ∧ p.Awaits 1 x fun _ => True := by
  have hn : (UInt8.ofNat (x + 0xC0)).toNat = x + 0xC0 := toNat_byte (by omega)
  have hbegin : begin pos (UInt8.ofNat (x + 0xC0)) =
      .inr ⟨pos, UInt8.ofNat (x + 0xC0), 1, 0x80, 0xBF, x⟩ := by
    simp only [begin, hn]
    rw [if_neg (by omega), if_neg (by omega), if_pos (by omega), Nat.add_sub_cancel]
  exact ⟨_, hbegin, rfl, rfl, fun y hy _ => by dsimp only; omega⟩

/-- Of three bytes, the second one keeps to the codes that two bytes do not reach, and
  to those that are no surrogates. -/
theorem begin_three (hx : x < 16) :
    ∃ p, begin pos (UInt8.ofNat (x + 0xE0)) = .inr p ∧
      p.Awaits 2 x fun y => (x = 0 → 32 ≤ y) ∧ (x = 13 → y < 32) := by
  by_cases h0 : x = 0
  · subst h0
    exact ⟨_, rfl, rfl, rfl, fun y hy h => by dsimp only; omega⟩
  by_cases h13 : x = 13
  · subst h13
    exact ⟨_, rfl, rfl, rfl, fun y hy h => by dsimp only; omega⟩
  have hn : (UInt8.ofNat (x + 0xE0)).toNat = x + 0xE0 := toNat_byte (by omega)
  have hbegin : begin pos (UInt8.ofNat (x + 0xE0)) =
      .inr ⟨pos, UInt8.ofNat (x + 0xE0), 2, 0x80, 0xBF, x⟩ := by
    simp only [begin, hn, beq_iff_eq]
    rw [if_neg (by omega), if_neg (by omega), if_neg (by omega), if_neg (by omega),
      if_neg (by omega), if_pos (by omega), Nat.add_sub_cancel]
  exact ⟨_, hbegin, rfl, rfl, fun y hy _ => by dsimp only; omega⟩

/-- Of four bytes, the second one keeps to the codes that three bytes do not reach, and
  to those up to the last character. -/
theorem begin_four (hx : x ≤ 4) :
    ∃ p, begin pos (UInt8.ofNat (x + 0xF0)) = .inr p ∧
      p.Awaits 3 x fun y => (x = 0 → 16 ≤ y) ∧ (x = 4 → y < 16) := by
  by_cases h0 : x = 0
  · subst h0
    exact ⟨_, rfl, rfl, rfl, fun y hy h => by dsimp only; omega⟩
  by_cases h4 : x = 4
  · subst h4
    exact ⟨_, rfl, rfl, rfl, fun y hy h => by dsimp only; omega⟩
  have hn : (UInt8.ofNat (x + 0xF0)).toNat = x + 0xF0 := toNat_byte (by omega)
  have hbegin : begin pos (UInt8.ofNat (x + 0xF0)) =
      .inr ⟨pos, UInt8.ofNat (x + 0xF0), 3, 0x80, 0xBF, x⟩ := by
    simp only [begin, hn, beq_iff_eq]
    rw [if_neg (by omega), if_neg (by omega), if_neg (by omega), if_neg (by omega),
      if_neg (by omega), if_neg (by omega), if_neg (by omega), if_pos (by omega),
      Nat.add_sub_cancel]
  exact ⟨_, hbegin, rfl, rfl, fun y hy _ => by dsimp only; omega⟩

end

/-! ## The bytes that follow -/

section
variable {p : Unfinished} {code x : Nat} {next : Nat → Prop} (pos : Nat) (rest : List UInt8)

theorem piecesFrom_last (hp : p.Awaits 1 code next) (hx : x < 64) (hnext : next x) :
    piecesFrom pos (some p) (UInt8.ofNat (x + 0x80) :: rest) =
      .char (Char.ofNat (code * 64 + x)) :: piecesFrom (pos + 1) none rest := by
  have hn : (UInt8.ofNat (x + 0x80)).toNat = x + 0x80 := toNat_byte (by omega)
  have hfeed : p.feed (UInt8.ofNat (x + 0x80)) = .done (Char.ofNat (code * 64 + x)) := by
    simp only [Unfinished.feed, hn, hp.missing, hp.code, Nat.add_sub_cancel, Bool.and_eq_true,
      decide_eq_true_eq]
    rw [if_pos (hp.admits x hx hnext), if_pos (Nat.le_refl 1)]
  simp only [piecesFrom, hfeed]

theorem piecesFrom_next {missing : Nat} (hp : p.Awaits (missing + 2) code next) (hx : x < 64)
    (hnext : next x) :
    ∃ q, piecesFrom pos (some p) (UInt8.ofNat (x + 0x80) :: rest) =
        piecesFrom (pos + 1) (some q) rest ∧
      q.Awaits (missing + 1) (code * 64 + x) fun _ => True := by
  have hn : (UInt8.ofNat (x + 0x80)).toNat = x + 0x80 := toNat_byte (by omega)
  have hfeed : p.feed (UInt8.ofNat (x + 0x80)) =
      .more ⟨p.start, p.firstByte, missing + 1, 0x80, 0xBF, code * 64 + x⟩ := by
    simp only [Unfinished.feed, hn, hp.missing, hp.code, Nat.add_sub_cancel, Bool.and_eq_true,
      decide_eq_true_eq]
    rw [if_pos (hp.admits x hx hnext), if_neg (by omega)]
    rfl
  refine ⟨⟨p.start, p.firstByte, missing + 1, 0x80, 0xBF, code * 64 + x⟩, ?_, rfl, rfl,
    fun y hy _ => by dsimp only; omega⟩
  simp only [piecesFrom, hfeed]

end

/-! ## Texts -/

theorem piecesFrom_begin {pos : Nat} {b : UInt8} {p : Unfinished} (h : begin pos b = .inr p)
    (rest : List UInt8) :
    piecesFrom pos none (b :: rest) = piecesFrom (pos + 1) (some p) rest := by
  simp only [piecesFrom, h]

/-- The bytes of a character are read as this character. -/
theorem piecesFrom_encodeChar (pos : Nat) (c : Char) (rest : List UInt8) :
    ∃ pos', piecesFrom pos none (String.utf8EncodeChar c ++ rest) =
      .char c :: piecesFrom pos' none rest := by
  -- the code put together from the bytes is that of the character
  have hc : ∀ n, n = c.val.toNat → Char.ofNat n = c := fun n hn => hn ▸ Char.ofNat_toNat c
  have hvalid : c.val.toNat < 0xD800 ∨ 0xDFFF < c.val.toNat ∧ c.val.toNat < 0x110000 := c.valid
  unfold String.utf8EncodeChar
  dsimp only
  generalize c.val.toNat = v at hc hvalid
  split
  · refine ⟨pos + 1, ?_⟩
    rw [List.singleton_append, piecesFrom, begin_one pos (by omega), hc v rfl]
  split
  · obtain ⟨p, hbegin, hp⟩ := begin_two pos (x := v / 64 % 32) (by omega) (by omega)
    refine ⟨pos + 2, ?_⟩
    simp only [List.cons_append, List.nil_append]
    rw [piecesFrom_begin hbegin, piecesFrom_last _ _ hp (by omega) trivial, hc _ (by omega)]
  split
  · obtain ⟨p, hbegin, hp⟩ := begin_three pos (x := v / 4096 % 16) (by omega)
    simp only [List.cons_append, List.nil_append]
    obtain ⟨q, hq, hawaits⟩ := piecesFrom_next (x := v / 64 % 64) (pos + 1)
      (UInt8.ofNat (v % 64 + 0x80) :: rest) hp (by omega) (by omega)
    refine ⟨pos + 3, ?_⟩
    rw [piecesFrom_begin hbegin, hq, piecesFrom_last _ _ hawaits (by omega) trivial,
      hc _ (by omega)]
  · obtain ⟨p, hbegin, hp⟩ := begin_four pos (x := v / 262144 % 8) (by omega)
    simp only [List.cons_append, List.nil_append]
    obtain ⟨q, hq, hawaits⟩ := piecesFrom_next (x := v / 4096 % 64) (pos + 1)
      (UInt8.ofNat (v / 64 % 64 + 0x80) :: UInt8.ofNat (v % 64 + 0x80) :: rest) hp (by omega)
      (by omega)
    obtain ⟨q', hq', hawaits'⟩ := piecesFrom_next (x := v / 64 % 64) (pos + 2)
      (UInt8.ofNat (v % 64 + 0x80) :: rest) hawaits (by omega) trivial
    refine ⟨pos + 4, ?_⟩
    rw [piecesFrom_begin hbegin, hq, hq', piecesFrom_last _ _ hawaits' (by omega) trivial,
      hc _ (by omega)]

theorem piecesFrom_encode (pos : Nat) (s : List Char) :
    piecesFrom pos none (encode s) = s.map .char := by
  induction s generalizing pos with
  | nil => rfl
  | cons c rest ih =>
    obtain ⟨pos', h⟩ := piecesFrom_encodeChar pos c (encode rest)
    rw [encode, List.flatMap_cons, ← encode, h, ih, List.map_cons]

theorem collect_map_char (s : List Char) : collect (s.map .char) = .ok s := by
  induction s with
  | nil => rfl
  | cons c rest ih => rw [List.map_cons, collect, ih, Except.map]

/-- The bytes of a text are read as this text. -/
theorem decode_encode (s : List Char) : decode (encode s) = .ok s := by
  rw [decode, pieces, piecesFrom_encode, collect_map_char]

/-! ## Bytes that are read without a fault -/

/-! The bytes of a character that was put together from them. -/

theorem ofNat_eq_of_toNat {b : UInt8} {x : Nat} (h : x = b.toNat) : UInt8.ofNat x = b := by
  rw [h, UInt8.ofNat_toNat]

theorem toNat_ofNat_of_valid {v : Nat} (h : v < 0xD800 ∨ 0xDFFF < v ∧ v < 0x110000) :
    (Char.ofNat v).val.toNat = v := by
  have hv : v.isValidChar := h
  rw [Char.ofNat, dif_pos hv]
  rfl

section
variable {a b c d : UInt8}

theorem encodeChar_one (ha : a.toNat < 0x80) :
    String.utf8EncodeChar (Char.ofNat a.toNat) = [a] := by
  have hval := toNat_ofNat_of_valid (v := a.toNat) (by omega)
  unfold String.utf8EncodeChar
  simp only [hval]
  rw [if_pos (by omega), ofNat_eq_of_toNat rfl]

theorem encodeChar_two (ha : 0xC2 ≤ a.toNat) (ha' : a.toNat < 0xE0) (hb : 0x80 ≤ b.toNat)
    (hb' : b.toNat ≤ 0xBF) :
    String.utf8EncodeChar (Char.ofNat ((a.toNat - 0xC0) * 64 + (b.toNat - 0x80))) = [a, b] := by
  generalize hv : (a.toNat - 0xC0) * 64 + (b.toNat - 0x80) = v
  have hval := toNat_ofNat_of_valid (v := v) (by omega)
  unfold String.utf8EncodeChar
  simp only [hval]
  rw [if_neg (by omega), if_pos (by omega), ofNat_eq_of_toNat (b := a) (by omega),
    ofNat_eq_of_toNat (b := b) (by omega)]

theorem encodeChar_three (ha : 0xE0 ≤ a.toNat) (ha' : a.toNat < 0xF0) (hb : 0x80 ≤ b.toNat)
    (hb' : b.toNat ≤ 0xBF) (hc : 0x80 ≤ c.toNat) (hc' : c.toNat ≤ 0xBF)
    (hlow : a.toNat = 0xE0 → 0xA0 ≤ b.toNat) (hhigh : a.toNat = 0xED → b.toNat ≤ 0x9F) :
    String.utf8EncodeChar (Char.ofNat
      (((a.toNat - 0xE0) * 64 + (b.toNat - 0x80)) * 64 + (c.toNat - 0x80))) = [a, b, c] := by
  generalize hv : ((a.toNat - 0xE0) * 64 + (b.toNat - 0x80)) * 64 + (c.toNat - 0x80) = v
  have hval := toNat_ofNat_of_valid (v := v) (by omega)
  unfold String.utf8EncodeChar
  simp only [hval]
  rw [if_neg (by omega), if_neg (by omega), if_pos (by omega),
    ofNat_eq_of_toNat (b := a) (by omega), ofNat_eq_of_toNat (b := b) (by omega),
    ofNat_eq_of_toNat (b := c) (by omega)]

theorem encodeChar_four (ha : 0xF0 ≤ a.toNat) (ha' : a.toNat ≤ 0xF4) (hb : 0x80 ≤ b.toNat)
    (hb' : b.toNat ≤ 0xBF) (hc : 0x80 ≤ c.toNat) (hc' : c.toNat ≤ 0xBF) (hd : 0x80 ≤ d.toNat)
    (hd' : d.toNat ≤ 0xBF) (hlow : a.toNat = 0xF0 → 0x90 ≤ b.toNat)
    (hhigh : a.toNat = 0xF4 → b.toNat ≤ 0x8F) :
    String.utf8EncodeChar (Char.ofNat
      ((((a.toNat - 0xF0) * 64 + (b.toNat - 0x80)) * 64 + (c.toNat - 0x80)) * 64 +
        (d.toNat - 0x80))) = [a, b, c, d] := by
  generalize hv : (((a.toNat - 0xF0) * 64 + (b.toNat - 0x80)) * 64 + (c.toNat - 0x80)) * 64 +
    (d.toNat - 0x80) = v
  have hval := toNat_ofNat_of_valid (v := v) (by omega)
  unfold String.utf8EncodeChar
  simp only [hval]
  rw [if_neg (by omega), if_neg (by omega), if_neg (by omega),
    ofNat_eq_of_toNat (b := a) (by omega), ofNat_eq_of_toNat (b := b) (by omega),
    ofNat_eq_of_toNat (b := c) (by omega), ofNat_eq_of_toNat (b := d) (by omega)]

end

section
variable {p : Unfinished} {pos : Nat} {bytes : List UInt8} {s : List Char}

theorem feed_of_admitted {b : UInt8} (hlow : p.low ≤ b.toNat) (hhigh : b.toNat ≤ p.high) :
    p.feed b = if p.missing ≤ 1 then .done (Char.ofNat (p.code * 64 + (b.toNat - 0x80)))
      else .more ⟨p.start, p.firstByte, p.missing - 1, 0x80, 0xBF,
        p.code * 64 + (b.toNat - 0x80)⟩ := by
  rw [Unfinished.feed, if_pos (by simp [hlow, hhigh])]

/-- Without a fault, a character goes on with a byte that it admits. -/
theorem exists_admitted (h : collect (piecesFrom pos (some p) bytes) = .ok s) :
    ∃ b rest, bytes = b :: rest ∧ p.low ≤ b.toNat ∧ b.toNat ≤ p.high := by
  cases bytes with
  | nil => cases h
  | cons b rest =>
    refine ⟨b, rest, rfl, ?_⟩
    by_cases hb : (p.low ≤ b.toNat && b.toNat ≤ p.high) = true
    · simpa only [Bool.and_eq_true, decide_eq_true_eq] using hb
    · have hfeed : p.feed b = .refused := by rw [Unfinished.feed, if_neg hb]
      rw [piecesFrom, hfeed] at h
      cases h

/-- Without a fault, the last byte of a character is read. -/
theorem exists_last (hp : p.missing ≤ 1)
    (h : collect (piecesFrom pos (some p) bytes) = .ok s) :
    ∃ b rest s', bytes = b :: rest ∧ p.low ≤ b.toNat ∧ b.toNat ≤ p.high ∧
      s = Char.ofNat (p.code * 64 + (b.toNat - 0x80)) :: s' ∧
      collect (piecesFrom (pos + 1) none rest) = .ok s' := by
  obtain ⟨b, rest, rfl, hlow, hhigh⟩ := exists_admitted h
  simp only [piecesFrom, feed_of_admitted hlow hhigh, if_pos hp, collect, map_eq_ok_iff] at h
  obtain ⟨s', hrest, rfl⟩ := h
  exact ⟨b, rest, s', rfl, hlow, hhigh, rfl, hrest⟩

/-- Without a fault, a byte of a character before the last one is read. -/
theorem exists_next (hp : ¬ p.missing ≤ 1)
    (h : collect (piecesFrom pos (some p) bytes) = .ok s) :
    ∃ b rest, bytes = b :: rest ∧ p.low ≤ b.toNat ∧ b.toNat ≤ p.high ∧
      collect (piecesFrom (pos + 1) (some ⟨p.start, p.firstByte, p.missing - 1, 0x80, 0xBF,
        p.code * 64 + (b.toNat - 0x80)⟩) rest) = .ok s := by
  obtain ⟨b, rest, rfl, hlow, hhigh⟩ := exists_admitted h
  simp only [piecesFrom, feed_of_admitted hlow hhigh, if_neg hp] at h
  exact ⟨b, rest, rfl, hlow, hhigh, h⟩

/-- What the first byte of a longer character fixes of the bytes that follow it. -/
inductive Begun (b : UInt8) (p : Unfinished) : Prop
  | two (hb : 0xC2 ≤ b.toNat ∧ b.toNat < 0xE0)
    (hp : p.missing = 1 ∧ p.low = 0x80 ∧ p.high = 0xBF ∧ p.code = b.toNat - 0xC0)
  | three (hb : 0xE0 ≤ b.toNat ∧ b.toNat < 0xF0)
    (hp : p.missing = 2 ∧ 0x80 ≤ p.low ∧ p.high ≤ 0xBF ∧ p.code = b.toNat - 0xE0)
    (hlow : b.toNat = 0xE0 → p.low = 0xA0) (hhigh : b.toNat = 0xED → p.high = 0x9F)
  | four (hb : 0xF0 ≤ b.toNat ∧ b.toNat ≤ 0xF4)
    (hp : p.missing = 3 ∧ 0x80 ≤ p.low ∧ p.high ≤ 0xBF ∧ p.code = b.toNat - 0xF0)
    (hlow : b.toNat = 0xF0 → p.low = 0x90) (hhigh : b.toNat = 0xF4 → p.high = 0x8F)

theorem begun_of_begin {b : UInt8} (h : begin pos b = .inr p) : Begun b p := by
  unfold begin at h
  simp only [beq_iff_eq] at h
  split at h
  · cases h
  split at h
  · cases h
  split at h
  · obtain rfl := Sum.inr.inj h
    exact .two (by omega) (by dsimp only; omega)
  iterate 3
    split at h
    · obtain rfl := Sum.inr.inj h
      exact .three (by omega) (by dsimp only; omega) (by dsimp only; omega) (by dsimp only; omega)
  iterate 3
    split at h
    · obtain rfl := Sum.inr.inj h
      exact .four (by omega) (by dsimp only; omega) (by dsimp only; omega) (by dsimp only; omega)
  cases h

/-- A character that is begun is read from its own bytes. -/
theorem Begun.exists_char {b : UInt8} (hp : Begun b p)
    (h : collect (piecesFrom pos (some p) bytes) = .ok s) :
    ∃ pos' c s' rest, s = c :: s' ∧ b :: bytes = String.utf8EncodeChar c ++ rest ∧
      collect (piecesFrom pos' none rest) = .ok s' := by
  cases hp with
  | two hb hp =>
    obtain ⟨hmissing, hlow, hhigh, hcode⟩ := hp
    obtain ⟨x, rest, s', rfl, hx, hx', rfl, hrest⟩ := exists_last (by omega) h
    refine ⟨_, _, s', rest, rfl, ?_, hrest⟩
    rw [hcode, encodeChar_two hb.1 hb.2 (by omega) (by omega)]
    rfl
  | three hb hp hlow hhigh =>
    obtain ⟨hmissing, hl, hh, hcode⟩ := hp
    obtain ⟨x, rest, rfl, hx, hx', h⟩ := exists_next (by omega) h
    obtain ⟨y, rest, s', rfl, hy, hy', rfl, hrest⟩ := exists_last (by dsimp only; omega) h
    refine ⟨_, _, s', rest, rfl, ?_, hrest⟩
    dsimp only at hy hy' ⊢
    rw [hcode, encodeChar_three hb.1 hb.2 (by omega) (by omega) hy hy' (by omega) (by omega)]
    rfl
  | four hb hp hlow hhigh =>
    obtain ⟨hmissing, hl, hh, hcode⟩ := hp
    obtain ⟨x, rest, rfl, hx, hx', h⟩ := exists_next (by omega) h
    obtain ⟨y, rest, rfl, hy, hy', h⟩ := exists_next (by dsimp only; omega) h
    obtain ⟨z, rest, s', rfl, hz, hz', rfl, hrest⟩ := exists_last (by dsimp only; omega) h
    refine ⟨_, _, s', rest, rfl, ?_, hrest⟩
    dsimp only at hy hy' hz hz' ⊢
    rw [hcode, encodeChar_four hb.1 hb.2 (by omega) (by omega) hy hy' hz hz' (by omega)
      (by omega)]
    rfl

end

/-- A byte that is read as a character is the only one of this character. -/
theorem char_of_begin {pos : Nat} {b : UInt8} {c : Char} (h : begin pos b = .inl (.char c)) :
    String.utf8EncodeChar c = [b] := by
  unfold begin at h
  simp only [beq_iff_eq] at h
  split at h
  · next hb =>
    obtain rfl : Char.ofNat b.toNat = c := Piece.char.inj (Sum.inl.inj h)
    exact encodeChar_one hb
  iterate 8
    split at h
    · cases h
  cases h

/-- Bytes that are read without a fault are those of the text that is read. -/
theorem eq_encode_of_collect {pos : Nat} {bytes : List UInt8} {s : List Char}
    (h : collect (piecesFrom pos none bytes) = .ok s) : bytes = encode s := by
  cases bytes with
  | nil =>
    obtain rfl : [] = s := Except.ok.inj h
    rfl
  | cons b bytes =>
    rw [piecesFrom] at h
    cases hbegin : begin pos b with
    | inl piece =>
      rw [hbegin] at h
      cases piece with
      | bad e => cases h
      | char c =>
        obtain ⟨s', hrest, rfl⟩ := map_eq_ok_iff.1 h
        rw [eq_encode_of_collect hrest, encode, encode, List.flatMap_cons, char_of_begin hbegin]
        rfl
    | inr p =>
      rw [hbegin] at h
      obtain ⟨pos', c, s', rest, rfl, hbytes, hrest⟩ := (begun_of_begin hbegin).exists_char h
      have hshorter : rest.length < bytes.length + 1 := by
        have hlength := congrArg List.length hbytes
        rw [List.length_append, String.length_utf8EncodeChar, List.length_cons] at hlength
        have := c.utf8Size_pos
        omega
      rw [hbytes, eq_encode_of_collect hrest, encode, encode, List.flatMap_cons]
  termination_by bytes.length

/-- **Bytes are read as a text iff they are the bytes of this text.** -/
theorem decode_eq_ok_iff {bytes : List UInt8} {s : List Char} :
    decode bytes = .ok s ↔ bytes = encode s := by
  constructor
  · exact eq_encode_of_collect
  · rintro rfl
    exact decode_encode s

end DepGraph.Text.Utf8
