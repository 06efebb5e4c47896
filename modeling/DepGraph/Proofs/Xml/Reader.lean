/-
  DepGraph — reading XML.

  A document is read character by character.  A reader keeps what it is in the middle of,
  the elements that are not closed yet, and the root once it is closed; where a rule of
  XML 1.0 is broken, it stops.  It takes documents without comments, processing
  instructions, marked sections and a document type.  Such a document has no entities but
  the five that are predefined, and white space in the value of an attribute is read as
  spaces.

  * `Node`: what is read; `Node.elements`: the elements of a tree.
  * `isLegal`, `isNameStart`, `isNameChar`: the characters of texts and of names.
  * `referenced?`: what a reference stands for.
  * `Reader.step`: one character; `read?`: a document.
  * `run_append_of_run`: texts that are read one after the other.
-/
import DepGraph.Text.Digit
import DepGraph.Text.Lines

namespace DepGraph.Xml

open DepGraph.Text

/-- A part of a document. -/
inductive Node
  | text (s : String)
  | element (name : String) (attributes : List (String × String)) (children : List Node)

/-- The elements of a part, in the order in which they start, each with its name and its
  attributes. -/
def Node.elements : Node → List (String × List (String × String))
  | .text _ => []
  | .element name attributes children => (name, attributes) :: go children
where
  /-- The elements of a list of parts. -/
  go : List Node → List (String × List (String × String))
    | [] => []
    | n :: rest => n.elements ++ go rest

/-! ## Characters -/

/-- A character that may occur in a document.  No `Char` is a surrogate. -/
def isLegal (c : Char) : Bool :=
  c == '\t' || c == '\n' || c == '\r' || (' ' ≤ c && c ≠ '\uFFFE' && c ≠ '\uFFFF')

/-- All characters of a text may occur in a document. -/
def IsLegalText (s : String) : Prop := ∀ c ∈ s.toList, isLegal c = true

instance (s : String) : Decidable (IsLegalText s) :=
  decidable_of_iff (s.toList.all isLegal = true) List.all_eq_true

/-- White space. -/
def isSpace (c : Char) : Bool := c == ' ' || c == '\t' || c == '\n' || c == '\r'

/-- The code points with which a name may start, as ranges. -/
def nameStartRanges : List (Nat × Nat) :=
  [(0x3A, 0x3A), (0x41, 0x5A), (0x5F, 0x5F), (0x61, 0x7A), (0xC0, 0xD6), (0xD8, 0xF6),
    (0xF8, 0x2FF), (0x370, 0x37D), (0x37F, 0x1FFF), (0x200C, 0x200D), (0x2070, 0x218F),
    (0x2C00, 0x2FEF), (0x3001, 0xD7FF), (0xF900, 0xFDCF), (0xFDF0, 0xFFFD), (0x10000, 0xEFFFF)]

/-- The other code points of names, as ranges. -/
def nameRanges : List (Nat × Nat) :=
  [(0x2D, 0x2E), (0x30, 0x39), (0xB7, 0xB7), (0x300, 0x36F), (0x203F, 0x2040)]

/-- A character lies in one of some ranges. -/
def isWithin (ranges : List (Nat × Nat)) (c : Char) : Bool :=
  ranges.any fun r => r.1 ≤ c.toNat && c.toNat ≤ r.2

/-- A character with which a name may start. -/
def isNameStart (c : Char) : Bool := isWithin nameStartRanges c

/-- A character of a name. -/
def isNameChar (c : Char) : Bool := isNameStart c || isWithin nameRanges c

/-! ## References -/

/-- The number that digits of a base make. -/
def digitsValue? (base : Nat) (digits : List Char) : Option Nat :=
  if digits.isEmpty then none
  else digits.foldlM (fun n c => do
    let d ← hexValue? c
    if d < base then some (n * base + d) else none) 0

/-- The character with a code point, if it may occur in a document.  A number that is no
  code point gives the character zero, which may not. -/
def coded? (n : Nat) : Option Char := if isLegal (Char.ofNat n) then some (Char.ofNat n) else none

/-- The predefined entities. -/
def predefined : List (String × Char) :=
  [("amp", '&'), ("lt", '<'), ("gt", '>'), ("apos", '\''), ("quot", '"')]

/-- What a reference stands for, given what is between `&` and `;`. -/
def referenced? : List Char → Option Char
  | '#' :: 'x' :: digits => (digitsValue? 16 digits).bind coded?
  | '#' :: digits => (digitsValue? 10 digits).bind coded?
  | name => predefined.lookup (.ofList name)

/-! ## The declaration -/

/-- The number of a version. -/
def isVersion (s : String) : Bool :=
  match s.toList with
  | '1' :: '.' :: digits => !digits.isEmpty && digits.all Char.isDigit
  | _ => false

/-- The name of an encoding. -/
def isEncoding (s : String) : Bool :=
  match s.toList with
  | [] => false
  | c :: rest => c.isAlpha && rest.all fun d => d.isAlphanum || d == '.' || d == '_' || d == '-'

/-- What a declaration says: the version, then the encoding and whether the document
  stands alone, if it says that. -/
def isDeclaration (said : List (String × String)) : Bool :=
  match said with
  | [("version", v)] => isVersion v
  | [("version", v), ("encoding", e)] => isVersion v && isEncoding e
  | [("version", v), ("standalone", a)] => isVersion v && (a == "yes" || a == "no")
  | [("version", v), ("encoding", e), ("standalone", a)] =>
    isVersion v && isEncoding e && (a == "yes" || a == "no")
  | _ => false

/-! ## Where a reader stands -/

/-- What a tag is for. -/
inductive Head
  /-- The declaration at the start of a document. -/
  | declaration
  /-- The start of an element. -/
  | element (name : String)
  deriving DecidableEq

/-- A tag so far. -/
structure Tag where
  head : Head
  attributes : List (String × String)
  deriving DecidableEq

/-- What a name is the name of. -/
inductive Named
  | declaration
  | start
  | finish
  | attribute (tag : Tag)

/-- What a reader is in the middle of.  Names and texts are kept last character first. -/
inductive Mode
  /-- At the start of the document. -/
  | start
  /-- Between tags, after some text.  As many closing brackets stand right before. -/
  | content (text : List Char) (brackets : Nat)
  /-- In a reference between tags. -/
  | contentReference (text name : List Char)
  /-- After `<`, at the start of the document or not. -/
  | markup (atStart : Bool)
  | name (of : Named) (text : List Char)
  /-- In a tag, after white space or not. -/
  | tag (t : Tag) (spaced : Bool)
  /-- After the name of an attribute: `=` is due. -/
  | equals (t : Tag) (name : String)
  /-- After `=`: a quote is due. -/
  | quote (t : Tag) (name : String)
  | value (t : Tag) (name : String) (quote : Char) (text : List Char)
  /-- In a reference in a value. -/
  | valueReference (t : Tag) (name : String) (quote : Char) (text reference : List Char)
  /-- After the `/` of an element without children. -/
  | slash (name : String) (attributes : List (String × String))
  /-- After the `?` at the end of the declaration. -/
  | question
  /-- After the name of an end tag. -/
  | finish (name : String)

/-- An element that is not closed yet; its children are kept last first. -/
structure Frame where
  name : String
  attributes : List (String × String)
  children : List Node

/-- A reader. -/
structure Reader where
  mode : Mode
  /-- The elements that are not closed yet, innermost first. -/
  frames : List Frame
  /-- The root, once it is closed. -/
  root : Option Node

namespace Reader

/-- At the start of a document. -/
def start : Reader := ⟨.start, [], none⟩

/-! ## Steps -/

/-- Put a text that is complete into the innermost element.  There is none around the root. -/
def putText (text : List Char) : List Frame → List Frame
  | [] => []
  | f :: rest =>
    if text.isEmpty then f :: rest
    else { f with children := .text (.ofList text.reverse) :: f.children } :: rest

/-- Put an element that is complete into the innermost one; else it is the root, and there
  may be only one. -/
def putElement (r : Reader) (n : Node) : Option Reader :=
  match r.frames with
  | f :: rest => some ⟨.content [] 0, { f with children := n :: f.children } :: rest, r.root⟩
  | [] => if r.root.isSome then none else some ⟨.content [] 0, [], some n⟩

/-- Between tags. -/
def stepContent (r : Reader) (text : List Char) (brackets : Nat) (c : Char) : Option Reader :=
  if c = '<' then some { r with mode := .markup false, frames := putText text r.frames }
  else if r.frames.isEmpty then
    if isSpace c then some { r with mode := .content [] 0 } else none
  else if c = '&' then some { r with mode := .contentReference text [] }
  else if c = '>' ∧ 2 ≤ brackets then none
  else some { r with mode := .content (c :: text) (if c = ']' then brackets + 1 else 0) }

/-- After `<`. -/
def stepMarkup (r : Reader) (atStart : Bool) (c : Char) : Option Reader :=
  if c = '/' then some { r with mode := .name .finish [] }
  else if c = '?' then
    if atStart then some { r with mode := .name .declaration [] } else none
  else if isNameStart c then some { r with mode := .name .start [c] }
  else none

/-- In a tag, between attributes. -/
def stepTag (r : Reader) (t : Tag) (spaced : Bool) (c : Char) : Option Reader :=
  if isSpace c then some { r with mode := .tag t true }
  else if isNameStart c then
    if spaced then some { r with mode := .name (.attribute t) [c] } else none
  else
    match t.head with
    | .declaration =>
      if c = '?' ∧ isDeclaration t.attributes then some { r with mode := .question } else none
    | .element name =>
      if c = '>' then
        some { r with mode := .content [] 0, frames := ⟨name, t.attributes, []⟩ :: r.frames }
      else if c = '/' then some { r with mode := .slash name t.attributes }
      else none

/-- After the name of an attribute. -/
def stepEquals (r : Reader) (t : Tag) (name : String) (c : Char) : Option Reader :=
  if isSpace c then some { r with mode := .equals t name }
  else if c = '=' then some { r with mode := .quote t name }
  else none

/-- After `=`. -/
def stepQuote (r : Reader) (t : Tag) (name : String) (c : Char) : Option Reader :=
  if isSpace c then some { r with mode := .quote t name }
  else if c = '"' ∨ c = '\'' then some { r with mode := .value t name c [] }
  else none

/-- In the value of an attribute.  A tag has only one attribute of a name, and what the
  declaration says is not written with references. -/
def stepValue (r : Reader) (t : Tag) (name : String) (quote : Char) (text : List Char)
    (c : Char) : Option Reader :=
  if c = quote then
    if name ∈ t.attributes.map Prod.fst then none
    else
      let attributes := t.attributes ++ [(name, String.ofList text.reverse)]
      some { r with mode := .tag { t with attributes } false }
  else if c = '<' then none
  else if c = '&' then
    if t.head = .declaration then none
    else some { r with mode := .valueReference t name quote text [] }
  else some { r with mode := .value t name quote ((if isSpace c then ' ' else c) :: text) }

/-- After the name of an end tag: it closes the innermost element. -/
def stepFinish (r : Reader) (name : String) (c : Char) : Option Reader :=
  if isSpace c then some { r with mode := .finish name }
  else
    match r.frames with
    | [] => none
    | f :: rest =>
      if c = '>' ∧ name = f.name then
        putElement { r with frames := rest } (.element f.name f.attributes f.children.reverse)
      else none

/-- After a name. -/
def stepNamed (r : Reader) (of : Named) (name : String) (c : Char) : Option Reader :=
  match of with
  | .declaration =>
    if name = "xml" ∧ isSpace c then some { r with mode := .tag ⟨.declaration, []⟩ true } else none
  | .start => r.stepTag ⟨.element name, []⟩ false c
  | .finish => r.stepFinish name c
  | .attribute t => r.stepEquals t name c

/-- Read a character that may occur in a document. -/
def stepLegal (r : Reader) (c : Char) : Option Reader :=
  match r.mode with
  | .start => if c = '<' then some { r with mode := .markup true } else r.stepContent [] 0 c
  | .content text brackets => r.stepContent text brackets c
  | .contentReference text name =>
    if c = ';' then
      (referenced? name.reverse).map fun d => { r with mode := .content (d :: text) 0 }
    else some { r with mode := .contentReference text (c :: name) }
  | .markup atStart => r.stepMarkup atStart c
  | .name of text =>
    if isNameChar c then some { r with mode := .name of (c :: text) }
    else r.stepNamed of (.ofList text.reverse) c
  | .tag t spaced => r.stepTag t spaced c
  | .equals t name => r.stepEquals t name c
  | .quote t name => r.stepQuote t name c
  | .value t name quote text => r.stepValue t name quote text c
  | .valueReference t name quote text reference =>
    if c = ';' then
      (referenced? reference.reverse).map fun d =>
        { r with mode := .value t name quote (d :: text) }
    else some { r with mode := .valueReference t name quote text (c :: reference) }
  | .slash name attributes =>
    if c = '>' then r.putElement (.element name attributes []) else none
  | .question => if c = '>' then some { r with mode := .content [] 0 } else none
  | .finish name => r.stepFinish name c

/-- Read a character. -/
def step (r : Reader) (c : Char) : Option Reader := if isLegal c then r.stepLegal c else none

/-- Read a text. -/
def run (r : Reader) (s : List Char) : Option Reader := s.foldlM step r

/-- What was read, if the document is complete. -/
def finish (r : Reader) : Option Node :=
  match r with
  | ⟨.content _ _, [], root⟩ => root
  | _ => none

end Reader

/-- Read a document: its root, if it is well-formed.  Line ends are made line feeds
  before. -/
def read? (text : List Char) : Option Node :=
  (Reader.start.run (foldNewlines text)).bind Reader.finish

/-- A document that breaks a rule is not read. -/
example : ["<a>", "<a></b>", "<a/><b/>", "<a b=1/>", "<a b=\"<\"/>", "<a b='1' b='2'/>",
    "<a b='1'c='2'/>", "<a b='&#xFFFE;'/>", "<a>&nbsp;</a>", "<a>]]></a>", "a", "",
    " <?xml version='1.0'?><a/>"].all (fun s => (read? s.toList).isNone) = true := by decide +kernel

/-- White space in a value is read as spaces, unless it is written with references. -/
example : (read? "<?xml version='1.0'?>\n<a b = 'x\t&#9;&lt;\"'><c d=\"&#x41;\" /></a >".toList).map
    Node.elements = some [("a", [("b", "x \t<\"")]), ("c", [("d", "A")])] := by decide +kernel

/-! ## Texts one after the other -/

namespace Reader

section
variable {r r' : Reader} {s t : List Char}

@[simp] theorem run_nil : r.run [] = some r := rfl

theorem run_cons (c : Char) : r.run (c :: s) = (r.step c).bind (·.run s) := rfl

theorem run_cons_of_step {c : Char} (h : r.step c = some r') : r.run (c :: s) = r'.run s := by
  rw [run_cons, h, Option.bind_some]

theorem run_append : r.run (s ++ t) = (r.run s).bind (·.run t) := by
  rw [run, List.foldlM_append]
  rfl

/-- Where a text was read, reading goes on with what follows it. -/
theorem run_append_of_run (h : r.run s = some r') : r.run (s ++ t) = r'.run t := by
  rw [run_append, h, Option.bind_some]

/-- A text with a character that may not occur is not read. -/
theorem run_eq_none {c : Char} (hc : isLegal c = false) (hmem : c ∈ s) : r.run s = none := by
  induction s generalizing r with
  | nil => exact absurd hmem List.not_mem_nil
  | cons d rest ih =>
    rw [run_cons]
    rcases List.mem_cons.1 hmem with rfl | hmem
    · rw [step, hc, if_neg Bool.false_ne_true, Option.bind_none]
    · rw [Option.bind_eq_none_iff]
      exact fun _ _ => ih hmem

end

end Reader

end DepGraph.Xml
