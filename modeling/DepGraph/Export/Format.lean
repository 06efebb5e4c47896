/-
  DepGraph — the formats in which a graph is written.

  * `Format`: the formats; `Format.all` in the order in which they are listed.
  * `Format.ofFile?`: the format that the suffix of a file asks for.
  * `Format.render`: the text of a graph.
-/
import DepGraph.Export.Data
import DepGraph.Export.Dgml
import DepGraph.Export.Dot
import DepGraph.Export.Page
import DepGraph.Path.Basic

namespace DepGraph

/-- The formats in which a graph is written. -/
inductive Format
  | plain
  | dot
  | dgml
  | js
  | json
  | vis
  | raw
  deriving DecidableEq, Repr

namespace Format

/-- All formats, in the order in which they are listed. -/
def all : List Format := [plain, dot, dgml, js, json, vis, raw]

/-- The name of a format. -/
def name : Format → String
  | plain => "plain"
  | dot => "dot"
  | dgml => "dgml"
  | js => "js"
  | json => "json"
  | vis => "vis"
  | raw => "raw"

/-- The format of a name. -/
def ofName? (s : String) : Option Format := all.find? (·.name == s)

/-- What a format is. -/
def description : Format → String
  | plain => "Plain text, one `a -> b` line per dependency"
  | dot => "Graphviz DOT, commonly used in real world"
  | dgml => "Directed Graph Markup Language, well supported by Visual Studio"
  | js => "JavaScript, the dependency data assigned to `const data`"
  | json => "Dependency data as JSON"
  | vis => "An HTML visualization powered by vis.js"
  | raw => "Raw parse result (path/module maps) as JSON"

/-- The suffixes of files that ask for a format. -/
def suffixes : List (String × Format) :=
  [(".txt", plain), (".dot", dot), (".gv", dot), (".dgml", dgml), (".js", js), (".json", json),
    (".html", vis), (".htm", vis)]

/-- The format that the suffix of a file asks for. -/
def ofFile? (file : String) : Option Format :=
  let suffix := Json.lowerAscii (Path.ofText file).suffix
  (suffixes.find? (·.1 == suffix)).map (·.2)

/-- The text of a graph. -/
def render (d : Diagram) : Format → String
  | plain => plainText d
  | dot => dotText d
  | dgml => dgmlText d
  | js => scriptText d
  | json => jsonText d
  | vis => pageText d
  | raw => surveyText d

end Format

end DepGraph
