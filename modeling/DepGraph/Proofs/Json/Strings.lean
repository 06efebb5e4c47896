/-
  DepGraph — reading strings that were written.

  A character of a string is written as itself, as an escape of one letter, or by
  its code: one escape of four digits, or two that are the halves of a surrogate
  pair.  Whichever it is, a reader in a string takes it as the character.

  * `Reader.run`: reading a text from where the reader stands.
  * `run_unicodeEscape`: reading an escape of four digits.
  * `run_escapedChar`: reading a character of a string.
  * `run_renderString`: reading a string.
-/
import DepGraph.Json.Reader
import DepGraph.Json.Writer

namespace DepGraph.Json

open DepGraph.Text

/-! ## Runs of the reader -/

/-- Read a text. -/
def Reader.run (r : Reader) (s : List Char) : Option Reader := s.foldlM Reader.step r

namespace Reader

variable {r r' : Reader} {s t : List Char}

@[simp] theorem run_nil : r.run [] = some r := rfl

@[simp] theorem run_cons (c : Char) : r.run (c :: s) = (r.step c).bind (·.run s) := rfl

theorem run_singleton {c : Char} (h : r.step c = some r') : r.run [c] = some r' := by
  rw [run_cons, h, Option.bind_some, run_nil]

theorem run_append : r.run (s ++ t) = (r.run s).bind (·.run t) := by
  rw [run, List.foldlM_append]
  rfl

/-- Where a text was read, reading goes on with what follows it. -/
theorem run_append_of_run (h : r.run s = some r') : r.run (s ++ t) = r'.run t := by
  rw [run_append, h, Option.bind_some]

end Reader

section
variable {mode mode' : Mode} {due due' : Due} {c : Char} (hbare : ∀ word, mode ≠ .bare word)
include hbare

/-- Outside bare words, a character completes at most one token. -/
theorem lexStep_eq (c : Char) :
    lexStep mode c = (modeStep mode c).map fun (t, mode) => (t.toList, mode) := by
  unfold lexStep
  split
  · next word => exact absurd rfl (hbare word)
  · rfl

/-- A character that completes no token. -/
theorem step_of_modeStep (h : modeStep mode c = some (none, mode')) :
    Reader.step ⟨mode, due⟩ c = some ⟨mode', due⟩ := by
  simp only [Reader.step, lexStep_eq hbare, h]
  rfl

/-- A character that completes a token. -/
theorem step_of_modeStep_token {t : Token} (h : modeStep mode c = some (some t, mode'))
    (hdue : parseStep due t = some due') : Reader.step ⟨mode, due⟩ c = some ⟨mode', due'⟩ := by
  have hrun : [t].foldlM parseStep due = some due' := by
    simp only [List.foldlM, hdue]
    rfl
  simp only [Reader.step, lexStep_eq hbare, h]
  simp only [Option.map_some, Option.toList_some, bind, Option.bind, hrun]
  rfl

end

/-! ## Escapes -/

theorem hexValue?_hexDigit (n : Nat) : hexValue? (hexDigit n) = some (n % 16) := by
  have hdigits : ∀ d < 16, hexValue? (hexDigit d) = some d := by decide +kernel
  have hmod : hexDigit n = hexDigit (n % 16) := by
    unfold hexDigit
    rw [Nat.mod_mod]
  rw [hmod, hdigits _ (Nat.mod_lt n (by decide))]

section
variable {done : List Char} {half : Option Nat} {due : Due}

theorem step_unicode {missing code : Nat} (n : Nat) :
    Reader.step ⟨.unicode done half (missing + 2) code, due⟩ (hexDigit n) =
      some ⟨.unicode done half (missing + 1) (code * 16 + n % 16), due⟩ := by
  refine step_of_modeStep (by simp) ?_
  simp [modeStep, hexValue?_hexDigit]

theorem step_unicode_last {code : Nat} {mode : Mode} (n : Nat)
    (h : finishUnicode done half (code * 16 + n % 16) = some mode) :
    Reader.step ⟨.unicode done half 1 code, due⟩ (hexDigit n) = some ⟨mode, due⟩ := by
  refine step_of_modeStep (by simp) ?_
  simp [modeStep, hexValue?_hexDigit, h]

theorem run_hexDigits {n : Nat} {mode : Mode} (hn : n < 0x10000)
    (h : finishUnicode done half n = some mode) :
    Reader.run ⟨.unicode done half 4 0, due⟩ (hexDigits 4 n) = some ⟨mode, due⟩ := by
  have hcode : (((0 * 16 + n / 16 / 16 / 16 % 16) * 16 + n / 16 / 16 % 16) * 16 +
      n / 16 % 16) * 16 + n % 16 = n := by omega
  simp only [hexDigits, List.nil_append, List.cons_append, Reader.run_cons, step_unicode,
    Option.bind_some]
  rw [step_unicode_last n (by rw [hcode]; exact h), Option.bind_some, Reader.run_nil]

/-- An escape of four digits stands for its code. -/
theorem run_unicodeEscape {n : Nat} {mode : Mode} (hn : n < 0x10000)
    (h : finishUnicode done none n = some mode) :
    Reader.run ⟨.string done, due⟩ (unicodeEscape n) = some ⟨mode, due⟩ :=
  run_hexDigits hn h

/-- After the first half of a pair, an escape of four digits stands for the second
  one. -/
theorem run_unicodeEscape_pair {n high : Nat} {mode : Mode} (hn : n < 0x10000)
    (h : finishUnicode done (some high) n = some mode) :
    Reader.run ⟨.pair done high true, due⟩ (unicodeEscape n) = some ⟨mode, due⟩ :=
  run_hexDigits hn h

/-- Two escapes that are the halves of a pair stand for its character. -/
theorem run_surrogates {n : Nat} (h : 0x10000 ≤ n) (hn : n < 0x110000) :
    Reader.run ⟨.string done, due⟩
        (unicodeEscape (0xD800 + (n - 0x10000) / 0x400) ++
          unicodeEscape (0xDC00 + (n - 0x10000) % 0x400)) =
      some ⟨.string (Char.ofNat n :: done), due⟩ := by
  have hhigh : finishUnicode done none (0xD800 + (n - 0x10000) / 0x400) =
      some (.pair done (0xD800 + (n - 0x10000) / 0x400) true) := by
    simp only [finishUnicode]
    rw [if_pos (by simp; omega)]
  have hlow : finishUnicode done (some (0xD800 + (n - 0x10000) / 0x400))
      (0xDC00 + (n - 0x10000) % 0x400) = some (.string (Char.ofNat n :: done)) := by
    have hcode : 0x10000 + (0xD800 + (n - 0x10000) / 0x400 - 0xD800) * 0x400 +
        (0xDC00 + (n - 0x10000) % 0x400 - 0xDC00) = n := by omega
    simp only [finishUnicode, hcode]
    rw [if_pos (by simp; omega)]
  rw [Reader.run_append_of_run (run_unicodeEscape (by omega) hhigh)]
  exact run_unicodeEscape_pair (by omega) hlow

/-! ## Strings -/

/-- A reader in a string takes what is written for a character as the character. -/
theorem run_escapedChar (asciiOnly : Bool) (c : Char) :
    Reader.run ⟨.string done, due⟩ (escapedChar asciiOnly c) = some ⟨.string (c :: done), due⟩ := by
  have hvalid : c.toNat < 0xD800 ∨ 0xDFFF < c.toNat ∧ c.toNat < 0x110000 := c.valid
  -- the code of a character is no half of a pair
  have hcode : finishUnicode done none c.toNat = some (.string (c :: done)) := by
    simp only [finishUnicode, Char.ofNat_toNat]
    rw [if_neg (by simp; omega), if_neg (by simp; omega)]
  unfold escapedChar
  split
  · rfl
  · rfl
  · rfl
  · rfl
  · rfl
  · rfl
  · rfl
  · next hquote hbackslash _ _ _ _ _ =>
    dsimp only
    split
    · exact run_unicodeEscape (by omega) hcode
    split
    · split
      · exact run_unicodeEscape (by omega) hcode
      · rw [run_surrogates (by omega) (by omega), Char.ofNat_toNat]
    · next hlow _ =>
      refine Reader.run_singleton (step_of_modeStep (by simp) ?_)
      simp only [modeStep, stringStep, beq_iff_eq]
      rw [if_neg hquote, if_neg hbackslash, if_neg hlow]

theorem run_escapedChars (asciiOnly : Bool) (s : List Char) :
    Reader.run ⟨.string done, due⟩ (s.flatMap (escapedChar asciiOnly)) =
      some ⟨.string (s.reverse ++ done), due⟩ := by
  induction s generalizing done with
  | nil => rfl
  | cons c rest ih =>
    rw [List.flatMap_cons, Reader.run_append_of_run (run_escapedChar asciiOnly c), ih,
      List.reverse_cons, List.append_assoc, List.singleton_append]

/-- A string that is written is read as this string. -/
theorem run_renderString {due due' : Due} (asciiOnly : Bool) {s : String}
    (h : parseStep due (.text s) = some due') :
    Reader.run ⟨.between, due⟩ (renderString asciiOnly s) = some ⟨.between, due'⟩ := by
  have hopen : Reader.step ⟨.between, due⟩ '"' = some ⟨.string [], due⟩ :=
    step_of_modeStep (by simp) rfl
  have hclose : Reader.step ⟨.string (s.toList.reverse ++ []), due⟩ '"' =
      some ⟨.between, due'⟩ := by
    refine step_of_modeStep_token (by simp) ?_ h
    simp [modeStep, stringStep]
  rw [renderString, List.cons_append, Reader.run_cons, hopen, Option.bind_some,
    Reader.run_append_of_run (run_escapedChars asciiOnly s.toList), Reader.run_cons, hclose,
    Option.bind_some, Reader.run_nil]

end

end DepGraph.Json
