/-
  DepGraph — reading UTF-8.

  The first byte of a character fixes how many bytes follow and the range of
  the second one.  A byte that cannot stand where it stands ends the sequence
  before it, and the bytes of a sequence that breaks off are one fault.

  * `pieces`: the characters of a byte sequence and its faults, in order.
  * `decode`: the text, or the first fault and where it lies.
  * `decodeLossy`: the text with `U+FFFD` for every fault.
  * `encode`: the bytes of a text.
-/

namespace DepGraph.Text.Utf8

/-- Why a run of bytes is no character. -/
inductive Fault
  /-- The byte starts no character. -/
  | invalidStart
  /-- The byte after the run cannot go on with the character. -/
  | invalidContinuation
  /-- The bytes end within the character. -/
  | unexpectedEnd
  deriving DecidableEq, Repr

/-- A fault, where it starts, how many bytes it spans and the first of them. -/
structure DecodeError where
  start : Nat
  length : Nat
  firstByte : UInt8
  fault : Fault
  deriving DecidableEq, Repr

/-- A character, or a run of bytes that is none. -/
inductive Piece
  | char (c : Char)
  | bad (e : DecodeError)
  deriving DecidableEq, Repr

/-- A character of which some bytes were read: where it starts, its first byte,
  the bytes still to come, the range of the next one, and its code so far. -/
structure Unfinished where
  start : Nat
  firstByte : UInt8
  missing : Nat
  low : Nat
  high : Nat
  code : Nat
  deriving DecidableEq, Repr

/-- Read the first byte of a character. -/
def begin (pos : Nat) (b : UInt8) : Piece ⊕ Unfinished :=
  let n := b.toNat
  if n < 0x80 then .inl (.char (Char.ofNat n))
  else if n < 0xC2 then .inl (.bad ⟨pos, 1, b, .invalidStart⟩)
  else if n < 0xE0 then .inr ⟨pos, b, 1, 0x80, 0xBF, n - 0xC0⟩
  else if n == 0xE0 then .inr ⟨pos, b, 2, 0xA0, 0xBF, 0⟩
  else if n == 0xED then .inr ⟨pos, b, 2, 0x80, 0x9F, n - 0xE0⟩
  else if n < 0xF0 then .inr ⟨pos, b, 2, 0x80, 0xBF, n - 0xE0⟩
  else if n == 0xF0 then .inr ⟨pos, b, 3, 0x90, 0xBF, 0⟩
  else if n < 0xF4 then .inr ⟨pos, b, 3, 0x80, 0xBF, n - 0xF0⟩
  else if n == 0xF4 then .inr ⟨pos, b, 3, 0x80, 0x8F, n - 0xF0⟩
  else .inl (.bad ⟨pos, 1, b, .invalidStart⟩)

/-- Go on with a character. -/
inductive Step
  | more (p : Unfinished)
  | done (c : Char)
  | refused

/-- Read one more byte of a character. -/
def Unfinished.feed (p : Unfinished) (b : UInt8) : Step :=
  let n := b.toNat
  if p.low ≤ n && n ≤ p.high then
    let code := p.code * 64 + (n - 0x80)
    if p.missing ≤ 1 then .done (Char.ofNat code)
    else .more { p with missing := p.missing - 1, low := 0x80, high := 0xBF, code := code }
  else .refused

/-- The characters and faults of the bytes from a position on, with the
  character that is being read. -/
def piecesFrom : Nat → Option Unfinished → List UInt8 → List Piece
  | _, none, [] => []
  | pos, some p, [] => [.bad ⟨p.start, pos - p.start, p.firstByte, .unexpectedEnd⟩]
  | pos, none, b :: rest =>
    match begin pos b with
    | .inl piece => piece :: piecesFrom (pos + 1) none rest
    | .inr p => piecesFrom (pos + 1) (some p) rest
  | pos, some p, b :: rest =>
    match p.feed b with
    | .more p' => piecesFrom (pos + 1) (some p') rest
    | .done c => .char c :: piecesFrom (pos + 1) none rest
    | .refused =>
      .bad ⟨p.start, pos - p.start, p.firstByte, .invalidContinuation⟩ ::
        match begin pos b with
        | .inl piece => piece :: piecesFrom (pos + 1) none rest
        | .inr p' => piecesFrom (pos + 1) (some p') rest

/-- The characters and faults of a byte sequence. -/
def pieces (bytes : List UInt8) : List Piece := piecesFrom 0 none bytes

/-- The characters, when there is no fault before them. -/
def collect : List Piece → Except DecodeError (List Char)
  | [] => .ok []
  | .char c :: rest => (collect rest).map (c :: ·)
  | .bad e :: _ => .error e

/-- The character that stands for a fault. -/
def replacement : Char := '\uFFFD'

/-- The text of a byte sequence, or its first fault. -/
def decode (bytes : List UInt8) : Except DecodeError (List Char) := collect (pieces bytes)

/-- The text of a byte sequence, with one replacement character for each fault. -/
def decodeLossy (bytes : List UInt8) : List Char :=
  (pieces bytes).map fun
    | .char c => c
    | .bad _ => replacement

/-- The bytes of a text. -/
def encode (s : List Char) : List UInt8 := s.flatMap String.utf8EncodeChar

end DepGraph.Text.Utf8
