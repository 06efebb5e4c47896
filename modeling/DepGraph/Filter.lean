/-
  DepGraph — filters on names.

  A filter is given by texts: `-p` leaves out the names in which the pattern `p`
  occurs, `+p` and `p` ask for names in which it occurs.

  * `NameFilter`: the patterns asked for and those left out.
  * `NameFilter.passes`: some pattern asked for occurs in a name, if any is asked
    for, and none left out does.
  * `NameFilter.ofTexts`: the filter of some texts.
-/
import DepGraph.Pattern.Matcher
import DepGraph.Pattern.Reader
import DepGraph.Text.Segments

namespace DepGraph

open DepGraph.Text

/-- The patterns that names must and must not hold. -/
structure NameFilter where
  asked : List Pattern
  leftOut : List Pattern
  deriving DecidableEq, Repr

namespace NameFilter

/-- The filter that every name passes. -/
def all : NameFilter := ⟨[], []⟩

/-- The filter has patterns. -/
def isActive (f : NameFilter) : Bool := !f.asked.isEmpty || !f.leftOut.isEmpty

/-- A name passes the filter. -/
def passes (f : NameFilter) (name : String) : Bool :=
  (f.asked.isEmpty || f.asked.any (·.occursIn name)) && !f.leftOut.any (·.occursIn name)

/-- The text of a pattern, and whether names with it are left out. -/
def signOf (text : String) : Bool × String :=
  match dropPrefix? "-" text, dropPrefix? "+" text with
  | some rest, _ => (true, rest)
  | none, some rest => (false, rest)
  | none, none => (false, text)

/-- The filter with one more text. -/
def add (f : NameFilter) (text : String) : Except (String × PatternError) NameFilter := do
  let (out, rest) := signOf text
  let p ← (Pattern.read rest).mapError (text, ·)
  return if out then { f with leftOut := f.leftOut ++ [p] } else { f with asked := f.asked ++ [p] }

/-- The filter of some texts, or the first text that holds no pattern. -/
def ofTexts (texts : List String) : Except (String × PatternError) NameFilter :=
  texts.foldlM add all

end NameFilter

end DepGraph
