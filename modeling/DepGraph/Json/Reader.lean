/-
  DepGraph — reading JSON.

  The text is read in one pass, character by character.  The lexical part knows
  whether it stands between tokens, in a bare word (a number or a name) or in a
  string; the grammatical part keeps the containers that are open and what may
  come next in the innermost one.

  Beside the standard, the names `NaN`, `Infinity` and `-Infinity` are numbers.
  A byte-order mark, a control character in a string, an unpaired surrogate
  escape and an integer of more than 4300 digits are refused.

  The reader stands for two.  One reads files that are checked against a shape; it
  refuses what this one refuses, and what lies too deep (`readForCheck`).  The other
  reads files of packages, stated dependencies and the values of options.  It takes an
  unpaired surrogate escape for a character, which no `String` holds; and where
  containers lie deeper within each other than its stack has room for, it does not
  refuse the text but breaks off.  It agrees with this one on ordinary texts.

  * `Json.read?`: the value of a text, its members as they were written.
  * `Json.readSettled?`: the value in which of equal keys the last one counts.
  * `Json.IsOrdinary`: no container lies too deep, and no surrogate escape is unpaired.
-/
import DepGraph.Decimal.Integer
import DepGraph.Json.Basic
import DepGraph.Text.Digit

namespace DepGraph.Json

open DepGraph.Decimal DepGraph.Text

/-! ## Tokens -/

/-- The tokens of JSON. -/
inductive Token
  | openArray
  | closeArray
  | openObject
  | closeObject
  | comma
  | colon
  /-- A string. -/
  | text (s : String)
  /-- A number, a truth value or null. -/
  | scalar (v : Json)

/-! ## Numbers and names -/

/-- The characters that bare words consist of. -/
def isBare (c : Char) : Bool := c.isAlphanum || c == '-' || c == '+' || c == '.'

/-- The value of a run of ASCII digits. -/
def digitsValue (ds : List Char) : Nat := ofDigits 10 (ds.map fun c => c.toNat - 48)

/-- The exponent of a number, with its sign; an absent one is zero. -/
def readExponent? : List Char → Option (Option Int)
  | [] => some none
  | e :: rest =>
    if e == 'e' || e == 'E' then
      let (sign, ds) : Int × List Char :=
        match rest with
        | '-' :: ds => (-1, ds)
        | '+' :: ds => (1, ds)
        | ds => (1, ds)
      if ds.isEmpty || !ds.all Char.isDigit then none else some (some (sign * digitsValue ds))
    else none

/-- The digits after the point of a number, and what follows them. -/
def readFraction? : List Char → Option (Option (List Char) × List Char)
  | '.' :: rest =>
    let ds := rest.takeWhile Char.isDigit
    if ds.isEmpty then none else some (some ds, rest.dropWhile Char.isDigit)
  | rest => some (none, rest)

/-- A number without its sign. -/
def readUnsigned? (negative : Bool) (s : List Char) : Option Json := do
  let whole := s.takeWhile Char.isDigit
  guard (!whole.isEmpty && (whole.length == 1 || whole.head? != some '0'))
  let (fraction, rest) ← readFraction? (s.dropWhile Char.isDigit)
  let exponent ← readExponent? rest
  match fraction, exponent with
  | none, none =>
    guard (whole.length ≤ digitLimit)
    let n : Int := digitsValue whole
    return .int (if negative then -n else n)
  | _, _ =>
    let decimals := fraction.getD []
    return .float (Binary.ofDecimal negative (digitsValue (whole ++ decimals))
      (exponent.getD 0 - decimals.length))

/-- The value of a bare word. -/
def readBare? (word : List Char) : Option Json :=
  match String.ofList word with
  | "null" => some .null
  | "true" => some (.bool true)
  | "false" => some (.bool false)
  | "NaN" => some (.float .notANumber)
  | "Infinity" => some (.float (.infinite false))
  | "-Infinity" => some (.float (.infinite true))
  | _ =>
    match word with
    | '-' :: rest => readUnsigned? true rest
    | _ => readUnsigned? false word

/-! ## The lexical part -/

/-- Where the reader stands within the text. -/
inductive Mode
  /-- Between tokens. -/
  | between
  /-- In a bare word; its characters so far, last first. -/
  | bare (word : List Char)
  /-- In a string; its characters so far, last first. -/
  | string (done : List Char)
  /-- After a backslash in a string. -/
  | escape (done : List Char)
  /-- In a `\u` escape of which `missing` digits are still to come, after the
    first half of a pair if there was one. -/
  | unicode (done : List Char) (half : Option Nat) (missing : Nat) (code : Nat)
  /-- After the first half of a surrogate pair: `\` is due, or `u` after it. -/
  | pair (done : List Char) (half : Nat) (backslash : Bool)

/-- The character that an escape of one letter stands for. -/
def escapeChar? : Char → Option Char
  | '"' => some '"'
  | '\\' => some '\\'
  | '/' => some '/'
  | 'b' => some '\x08'
  | 'f' => some '\x0c'
  | 'n' => some '\n'
  | 'r' => some '\r'
  | 't' => some '\t'
  | _ => none

/-- The blanks that may stand between tokens. -/
def isSpace (c : Char) : Bool := c == ' ' || c == '\n' || c == '\t' || c == '\r'

/-- The token of a punctuation mark. -/
def mark? : Char → Option Token
  | '[' => some .openArray
  | ']' => some .closeArray
  | '{' => some .openObject
  | '}' => some .closeObject
  | ',' => some .comma
  | ':' => some .colon
  | _ => none

/-- A character between tokens. -/
def startToken (c : Char) : Option (Option Token × Mode) :=
  if isSpace c then some (none, .between)
  else if c == '"' then some (none, .string [])
  else if isBare c then some (none, .bare [c])
  else (mark? c).map fun t => (some t, .between)

/-- A complete `\u` escape. -/
def finishUnicode (done : List Char) (half : Option Nat) (code : Nat) : Option Mode :=
  match half with
  | some high =>
    if 0xDC00 ≤ code && code < 0xE000 then
      some (.string (Char.ofNat (0x10000 + (high - 0xD800) * 0x400 + (code - 0xDC00)) :: done))
    else none
  | none =>
    if 0xD800 ≤ code && code < 0xDC00 then some (.pair done code true)
    else if 0xDC00 ≤ code && code < 0xE000 then none
    else some (.string (Char.ofNat code :: done))

/-- A character within a string. -/
def stringStep (done : List Char) (c : Char) : Option (Option Token × Mode) :=
  if c == '"' then some (some (.text (String.ofList done.reverse)), .between)
  else if c == '\\' then some (none, .escape done)
  else if c.toNat < 0x20 then none
  else some (none, .string (c :: done))

/-- One character: the token that it completes, if any, and where the reader
  stands after it.  Of a bare word every character is taken as a part. -/
def modeStep : Mode → Char → Option (Option Token × Mode)
  | .between, c => startToken c
  | .bare word, c => some (none, .bare (c :: word))
  | .string done, c => stringStep done c
  | .escape done, c =>
    if c == 'u' then some (none, .unicode done none 4 0)
    else (escapeChar? c).map fun d => (none, .string (d :: done))
  | .unicode done half missing code, c => do
    let code := code * 16 + (← hexValue? c)
    if missing ≤ 1 then return (none, ← finishUnicode done half code)
    return (none, .unicode done half (missing - 1) code)
  | .pair done half backslash, c =>
    if backslash then if c == '\\' then some (none, .pair done half false) else none
    else if c == 'u' then some (none, .unicode done (some half) 4 0) else none

/-- One character: the tokens that it completes, and where the reader stands
  after it.  A bare word ends at the first character that is none of its own. -/
def lexStep (mode : Mode) (c : Char) : Option (List Token × Mode) :=
  match mode with
  | .bare word =>
    if isBare c then some ([], .bare (c :: word))
    else do
      let v ← readBare? word.reverse
      let (t, mode) ← startToken c
      return (.scalar v :: t.toList, mode)
  | mode => (modeStep mode c).map fun (t, mode) => (t.toList, mode)

/-- The tokens that the end of the text completes. -/
def lexEnd : Mode → Option (List Token)
  | .between => some []
  | .bare word => (readBare? word.reverse).map fun v => [.scalar v]
  | _ => none

/-! ## The grammatical part -/

/-- A container that is open. -/
inductive Frame
  /-- An array; its items so far, last first. -/
  | items (done : List Json)
  /-- An object; its members so far, last first, and the key whose value is
    being read. -/
  | members (done : List (String × Json)) (key : String)

/-- What may come next. -/
inductive Due
  /-- A value, or the end of the array when nothing stands in it yet. -/
  | value (stack : List Frame) (orClose : Bool)
  /-- A key, or the end of the object when nothing stands in it yet. -/
  | key (done : List (String × Json)) (stack : List Frame) (orClose : Bool)
  /-- The colon after a key. -/
  | colon (done : List (String × Json)) (key : String) (stack : List Frame)
  /-- What follows a value that is complete. -/
  | next (v : Json) (stack : List Frame)

/-- One token. -/
def parseStep : Due → Token → Option Due
  | .value stack _, .scalar v => some (.next v stack)
  | .value stack _, .text s => some (.next (.string s) stack)
  | .value stack _, .openArray => some (.value (.items [] :: stack) true)
  | .value stack _, .openObject => some (.key [] stack true)
  | .value (.items done :: stack) true, .closeArray => some (.next (.array done.reverse) stack)
  | .key done stack _, .text k => some (.colon done k stack)
  | .key done stack true, .closeObject => some (.next (.object done.reverse) stack)
  | .colon done k stack, .colon => some (.value (.members done k :: stack) false)
  | .next v (.items done :: stack), .comma => some (.value (.items (v :: done) :: stack) false)
  | .next v (.items done :: stack), .closeArray => some (.next (.array (v :: done).reverse) stack)
  | .next v (.members done k :: stack), .comma => some (.key ((k, v) :: done) stack false)
  | .next v (.members done k :: stack), .closeObject =>
    some (.next (.object ((k, v) :: done).reverse) stack)
  | _, _ => none

/-- The state of the reader. -/
structure Reader where
  mode : Mode
  due : Due

/-- Before the first character. -/
def Reader.start : Reader := ⟨.between, .value [] false⟩

/-- Read one character. -/
def Reader.step (r : Reader) (c : Char) : Option Reader := do
  let (tokens, mode) ← lexStep r.mode c
  return ⟨mode, ← tokens.foldlM parseStep r.due⟩

/-- The value, when the text may end here. -/
def Reader.finish (r : Reader) : Option Json := do
  let tokens ← lexEnd r.mode
  match ← tokens.foldlM parseStep r.due with
  | .next v [] => some v
  | _ => none

/-- The value of a text; equal keys of an object all remain. -/
def read? (s : List Char) : Option Json :=
  (s.foldlM Reader.step Reader.start).bind Reader.finish

/-- The value of a text; of equal keys of an object the last value counts. -/
def readSettled? (s : List Char) : Option Json := (read? s).map settled

/-! ## Ordinary texts -/

/-- The number of containers that are open. -/
def Due.depth : Due → Nat
  | .value stack _ | .next _ stack => stack.length
  | .key _ stack _ | .colon _ _ stack => stack.length + 1

/-- With this character one half of a surrogate pair stays without the other. -/
def Mode.unpairs : Mode → Char → Bool
  | .pair _ _ backslash, c => c != if backslash then '\\' else 'u'
  | .unicode done half missing code, c =>
    missing ≤ 1 && (hexValue? c).any fun d => (finishUnicode done half (code * 16 + d)).isNone
  | _, _ => false

/-- Every character passes a test of where the reader stands, as far as it reads. -/
def Reader.all (test : Reader → Char → Bool) : Reader → List Char → Bool
  | _, [] => true
  | r, c :: rest => test r c && (r.step c).all fun next => Reader.all test next rest

/-- As many open containers leave every reader room on its stack. -/
def ordinaryDepth : Nat := 500

/-- Not too many containers are open at once, and every surrogate escape has its pair. -/
def IsOrdinary (s : List Char) : Prop :=
  Reader.start.all (fun r c => r.due.depth ≤ ordinaryDepth && !r.mode.unpairs c) s = true

instance (s : List Char) : Decidable (IsOrdinary s) := inferInstanceAs (Decidable (_ = _))

example : IsOrdinary "[\"\\ud83d\\ude00\"]".toList ∧ ¬ IsOrdinary "[\"\\ud83d\\n\"]".toList ∧
    ¬ IsOrdinary (List.replicate 502 '[') := by decide +kernel

end DepGraph.Json
