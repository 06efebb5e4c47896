/-
  DepGraph — graphs in the Directed Graph Markup Language.

  Every name is a node; the names that hold others are groups.  Containment and
  dependency are links.

  * `attributeText`: a text as the value of an attribute, with its quotes.
  * `DgmlElement`: the elements; `DgmlElement.nodesOf`, `linksOf` those of a graph.
  * `dgmlText`: the text of a graph.
-/
import DepGraph.Diagram

namespace DepGraph

open DepGraph.Text

/-- A character as part of the value of an attribute. -/
def attributeChar (c : Char) : String :=
  match c with
  | '&' => "&amp;"
  | '<' => "&lt;"
  | '>' => "&gt;"
  | '\n' => "&#10;"
  | '\r' => "&#13;"
  | '\t' => "&#9;"
  | c => String.singleton c

/-- A text with the characters that markup would change written as references. -/
def escapedText (s : String) : String := String.join (s.toList.map attributeChar)

/-- A text as the value of an attribute: between double quotes, or between single
  ones if it holds double quotes and no single one. -/
def attributeText (s : String) : String :=
  let body := escapedText s
  if !s.contains '"' then "\"" ++ body ++ "\""
  else if s.contains '\'' then "\"" ++ replaceAll "\"" "&quot;" body ++ "\""
  else "'" ++ body ++ "'"

/-- An element of the language. -/
inductive DgmlElement
  | node (name : String) (isGroup : Bool)
  | link (source target : String) (isContainment : Bool)
  deriving DecidableEq, Repr

namespace DgmlElement

/-- The text of an element. -/
def text : DgmlElement → String
  | node name isGroup =>
    "  <Node Id=" ++ attributeText name ++ " Label=" ++ attributeText name ++
      (if isGroup then " Group=\"Collapsed\"" else "") ++ "/>"
  | link source target isContainment =>
    "  <Link Source=" ++ attributeText source ++ " Target=" ++ attributeText target ++
      (if isContainment then " Category=\"Contains\"" else "") ++ " />"

/-- The nodes of a graph: the names that hold others, then the other names that
  edges touch. -/
def nodesOf (d : Diagram) : List DgmlElement :=
  let groups := (d.containsEdges.map (·.1)).eraseDups
  let names := (Containment.endpoints d.edges).eraseDups
  groups.map (.node · true) ++ (names.filter (· ∉ groups)).map (.node · false)

/-- The links of a graph: containment, then dependency. -/
def linksOf (d : Diagram) : List DgmlElement :=
  d.containsEdges.map (fun e => .link e.1 e.2 true) ++ d.edges.map (fun e => .link e.1 e.2 false)

end DgmlElement

/-- A graph in the markup language. -/
def dgmlText (d : Diagram) : String :=
  join "\n" (["<?xml version=\"1.0\" encoding=\"utf-8\"?>",
      "<DirectedGraph xmlns=\"http://schemas.microsoft.com/vs/2009/dgml\">", "<Nodes>"] ++
    (DgmlElement.nodesOf d).map DgmlElement.text ++ ["</Nodes>", "<Links>"] ++
    (DgmlElement.linksOf d).map DgmlElement.text ++ ["</Links>", "</DirectedGraph>"])

end DepGraph
