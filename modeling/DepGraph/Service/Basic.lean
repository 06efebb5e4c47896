/-
  DepGraph — the service.

  The service answers requests for graphs, their texts and their cycles, and
  lists the languages and formats.  Every answer is JSON.

  * `Route`: what can be asked for, each at a path of its own and by one method.
  * `Reply`: an answer; `Reply.status` and `Reply.text` are what is sent.
  * `Workspace.reply`: the answer to a request.
-/
import DepGraph.Path.Normal
import DepGraph.Run
import DepGraph.Service.Query

namespace DepGraph

open DepGraph.Json DepGraph.Text

/-! ## Routes -/

/-- What can be asked for. -/
inductive Route
  | graph
  | render
  | cycles
  | languages
  | formats
  deriving DecidableEq, Repr

namespace Route

/-- All routes. -/
def all : List Route := [graph, render, cycles, languages, formats]

/-- The path of a route. -/
def path : Route → String
  | graph => "/api/graph"
  | render => "/api/render"
  | cycles => "/api/cycles"
  | languages => "/api/languages"
  | formats => "/api/formats"

/-- The method of a route. -/
def method : Route → String
  | graph | render | cycles => "POST"
  | languages | formats => "GET"

/-- The route of a path. -/
def ofPath? (path : String) : Option Route := all.find? (·.path == path)

end Route

/-- The path of an address: what stands before its query. -/
def pathOf (address : String) : String :=
  String.ofList (address.toList.takeWhile fun c => c != '?' && c != '#')

/-- A path with the slashes at its end taken off, or with one if it has none. -/
def otherEnding (path : String) : String :=
  if endsWith path "/" then
    String.ofList (path.toList.reverse.dropWhile (· == '/')).reverse
  else path ++ "/"

/-! ## Replies -/

/-- An answer. -/
inductive Reply
  | success (v : Json)
  /-- The request is for another path. -/
  | moved
  | badRequest (detail : String)
  | notFound (detail : String)
  | wrongMethod
  /-- The body is not what it must be. -/
  | invalid (issues : List Issue)
  | broken (f : Failure)

namespace Reply

/-- The status of an answer. -/
def status : Reply → Nat
  | success _ => 200
  | moved => 307
  | badRequest _ => 400
  | notFound _ => 404
  | wrongMethod => 405
  | invalid _ => 422
  | broken _ => 500

/-- An issue with its kind and the way that leads to it. -/
def issueJson (i : Issue) : Json :=
  .object [("type", .string i.kind.name), ("loc", .ofStrings i.way)]

/-- An object that says what is wrong. -/
def detailText (detail : Json) : String :=
  (Json.object [("detail", detail)]).render ⟨.compact, false⟩

/-- The text of an answer. -/
def text : Reply → String
  | success v => v.render ⟨.compact, false⟩
  | moved => ""
  | badRequest detail | notFound detail => detailText (.string detail)
  | wrongMethod => detailText (.string "Method Not Allowed")
  | invalid issues => detailText (.array (issues.map issueJson))
  | broken _ => "Internal Server Error"

/-- The answer to a request that fails. -/
def ofFailure (f : Failure) : Reply := if f.isReported then badRequest f.message else broken f

end Reply

/-! ## Answers -/

/-- Names with what they stand for. -/
def namedList (key : String) (items : List (String × String)) : Json :=
  .object [(key, .array (items.map fun e =>
    .object [("name", .string e.1), ("description", .string e.2)]))]

/-- A path without `..`, each of which takes the part before it away. -/
def Path.resolved (p : Path) : Path := ⟨min p.slashes 1, keptSegments p.parts⟩

/-- A path seen from the root; `here` is the current directory. -/
def Path.absoluteText (here : String) (p : Path) : String :=
  if p.slashes = 0 then
    if p.parts.isEmpty then here else here ++ "/" ++ p.text
  else p.text

namespace Workspace

/-- The path of a query; `here` is the name of the current directory. -/
def targetOf (ws : Workspace) (here : String) (q : Query) : Except Reply Path :=
  let path := (Path.ofText q.path).resolved
  if '\x00' ∈ q.path.toList then .error (.broken (.file .nullCharacter))
  else
    match ws.pathExists path.text with
    | .ok true => .ok path
    | .ok false => .error (.notFound ("Path not found: " ++ path.absoluteText here))
    | .error cause => .error (.broken (.file (.fault cause (path.absoluteText here))))

/-- The graph that a query asks for. -/
def graphOf (ws : Workspace) (here : String) (q : Query) : Except Reply Diagram := do
  let target ← ws.targetOf here q
  let layer := q.layer.insert Setting.target.name (.path target)
  let c ← (Config.ofLayer layer).mapError .ofFailure
  (Run.diagram ws c).result.mapError .ofFailure

/-- What a route answers to a body. -/
def answer (ws : Workspace) (here : String) (body : Json) : Route → Except Reply Json
  | .languages => .ok (namedList "languages" (Language.all.map fun l => (l.name, l.description)))
  | .formats => .ok (namedList "formats" (Format.all.map fun f => (f.name, f.description)))
  | .graph => do
    let q ← (Query.ofBody false body).mapError .invalid
    return (← ws.graphOf here q).toJson
  | .cycles => do
    let q ← (Query.ofBody false body).mapError .invalid
    let d ← ws.graphOf here q
    return .object [("cycles", .array (d.cycles.map .ofStrings))]
  | .render => do
    let q ← (Query.ofBody true body).mapError .invalid
    let d ← ws.graphOf here q
    let text ← (renderAs q.format d).mapError .ofFailure
    return .object [("format", .string q.format), ("output", .string text)]

/-- The answer to a request; `here` is the name of the current directory. -/
def reply (ws : Workspace) (here method address : String) (body : Json) : Reply :=
  match Route.ofPath? (pathOf address) with
  | some route =>
    if route.method = method then
      match ws.answer here body route with
      | .ok v => .success v
      | .error r => r
    else .wrongMethod
  | none =>
    if (Route.ofPath? (otherEnding (pathOf address))).isSome then .moved else .notFound "Not Found"

end Workspace

end DepGraph
