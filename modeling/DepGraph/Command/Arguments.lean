/-
  DepGraph — the arguments of a command line.

  An argument that starts with a dash and has more to it gives options: `--name`
  or `--name=value`, or short ones in a row, `-xyz`, of which the last may carry
  its value with it.  The value of an option may also be the next argument.
  After `--` no argument gives options.

  * `OptionTable`: the options that a command knows.
  * `Arguments`: the options that are given, in order, and what else there is.
  * `OptionTable.read?`: the arguments of a command line; there are none if an
    option is not known, lacks its value, or has one that it does not take.
-/
import DepGraph.Text.Segments

namespace DepGraph

open DepGraph.Text

/-- The options that a command knows. -/
structure OptionTable (ω : Type) where
  all : List ω
  /-- The name of an option, which two dashes come before. -/
  long : ω → String
  /-- The letter of an option, which one dash comes before. -/
  short? : ω → Option Char
  takesValue : ω → Bool

/-- The options that are given, in order, each with its value if it takes one,
  and the other arguments. -/
structure Arguments (ω : Type) where
  given : List (ω × Option String)
  rest : List String

namespace OptionTable

variable {ω : Type} (t : OptionTable ω)

/-- What a single argument is. -/
inductive Word (ω : Type)
  /-- The argument `--`. -/
  | stop
  | plain
  /-- Options; the last one may still lack its value. -/
  | options (given : List (ω × Option String)) (pending : Option ω)
  | invalid

/-- Options by their letters: those that are complete, and one that still lacks
  its value. -/
def readLetters? : List Char → Option (List (ω × Option String) × Option ω)
  | [] => some ([], none)
  | c :: rest => do
    let o ← t.all.find? (t.short? · == some c)
    if t.takesValue o then
      return if rest.isEmpty then ([], some o) else ([(o, some (String.ofList rest))], none)
    else
      let (given, pending) ← readLetters? rest
      return ((o, none) :: given, pending)

/-- An option by its name, with the value that follows an equals sign. -/
def readName (name : String) (value : Option String) : Word ω :=
  match t.all.find? (t.long · == name), value with
  | none, _ => .invalid
  | some o, some value => if t.takesValue o then .options [(o, some value)] none else .invalid
  | some o, none => if t.takesValue o then .options [] (some o) else .options [(o, none)] none

/-- What a single argument is. -/
def word (arg : String) : Word ω :=
  match arg.toList with
  | ['-', '-'] => .stop
  | '-' :: '-' :: body =>
    let name := body.takeWhile (· != '=')
    let value := match body.drop name.length with
      | [] => none
      | _ :: after => some (String.ofList after)
    t.readName (String.ofList name) value
  | '-' :: c :: rest =>
    match t.readLetters? (c :: rest) with
    | some (given, pending) => .options given pending
    | none => .invalid
  | _ => .plain

/-- Read arguments; `pending` is an option that lacks its value.  If options do
  not mix with other arguments, the first of these ends the options. -/
def readFrom (mixed : Bool) : Option ω → List String → Option (Arguments ω)
  | none, [] => some ⟨[], []⟩
  | some _, [] => none
  | some o, value :: rest =>
    (readFrom mixed none rest).map fun a => { a with given := (o, some value) :: a.given }
  | none, arg :: rest =>
    match t.word arg with
    | .stop => some ⟨[], rest⟩
    | .plain =>
      if mixed then (readFrom mixed none rest).map fun a => { a with rest := arg :: a.rest }
      else some ⟨[], arg :: rest⟩
    | .options given pending =>
      (readFrom mixed pending rest).map fun a => { a with given := given ++ a.given }
    | .invalid => none

/-- The arguments of a command line. -/
def read? (mixed : Bool) (args : List String) : Option (Arguments ω) := t.readFrom mixed none args

end OptionTable

end DepGraph
